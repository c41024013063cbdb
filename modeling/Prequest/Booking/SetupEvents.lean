import Prequest.Booking.CancelLines
import Prequest.Booking.Create

/-!
# Setup work orders of a booking's lines

The event `setup_work_order.create_required` asks for the setup work order of one
order line. It is emitted when the booking is created, or by the grant that confirms
it, from the fields of the line that the plan filled. This module says of each command
what it does to the order lines and to these events.

* `releases`, `approveBookingSetupTrigger_spec`: the setup trigger.
-/

namespace Prequest.Booking

open Prequest.Lib Prequest.Outbox Prequest.Approval Prequest.Command Prequest.Orders

def isSetupEventOf (lineId : Nat) (e : Event BookingEventKey BookingEvent) : Bool :=
  match e.payload with
  | .setupWorkOrderCreateRequired _ id _ _ => id == lineId
  | _ => false

/-! ## Commands without setup events -/

/-- At most some lines are cancelled, and the setup events are the same. -/
structure Quiet (db db' : BookingDb) : Prop where
  lines : ∃ p, db'.orderLineItems = db.orderLineItems.update p cancelLine
  events : ∀ id e, isSetupEventOf id e = true → (e ∈ db'.outbox.rows ↔ e ∈ db.outbox.rows)

theorem Quiet.of_same {db db' : BookingDb} (hlines : db'.orderLineItems = db.orderLineItems)
    (houtbox : db'.outbox = db.outbox) : Quiet db db' where
  lines := ⟨fun _ => false, by rw [hlines, Table.update_eq_self fun _ _ => rfl]⟩
  events id e _ := by rw [houtbox]

theorem emitAll_quiet {es : List (Event BookingEventKey BookingEvent)} {outbox outbox' : BookingOutbox}
    (h : emitAll outbox es = .ok outbox') (hes : ∀ e ∈ es, ∀ id, ¬isSetupEventOf id e = true) (id : Nat)
    (e : Event BookingEventKey BookingEvent) (he : isSetupEventOf id e = true) :
    e ∈ outbox'.rows ↔ e ∈ outbox.rows := by
  rw [mem_of_emitAll h]
  constructor
  · rintro (hold | hnew)
    · exact hold
    · exact absurd he (hes e hnew id)
  · exact Or.inl

variable {store store' : BookingStore} {result : BookingResult}

theorem cancelLines_quiet {call : CancelLinesCall}
    (h : cancelOrderLinesWithCascade store call = .ok (store', result)) :
    Quiet store.db store'.db := by
  cases cancelOrderLines_cases h with
  | cached _ hsame =>
    subst hsame
    exact .of_same rfl rfl
  | done hnew hresult outbox hemit hdb =>
    rw [hdb]
    refine ⟨⟨call.takes store.db, rfl⟩, emitAll_quiet hemit fun e he id => ?_⟩
    unfold cancelLinesEvents at he
    split at he
    · cases he
    · obtain rfl := List.mem_singleton.mp he
      simp [isSetupEventOf]

variable {call : CancelCall}

theorem foldlM_cancelOne_events {ids : List Nat}
    {acc acc' : BookingDb × CancelCounts} (h : ids.foldlM (cancelOne call) acc = .ok acc') (id : Nat)
    (e : Event BookingEventKey BookingEvent) (he : isSetupEventOf id e = true) :
    e ∈ acc'.1.outbox.rows ↔ e ∈ acc.1.outbox.rows := by
  induction ids generalizing acc with
  | nil =>
    cases h
    rfl
  | cons bookingId ids ih =>
    rw [List.foldlM_cons] at h
    cases hone : cancelOne call acc bookingId with
    | error err =>
      rw [hone] at h
      cases h
    | ok mid =>
      rw [hone] at h
      rw [ih h]
      unfold cancelOne at hone
      split at hone
      · cases hone
      · rename_i outbox hemit
        obtain rfl := Except.ok.inj hone
        refine emitAll_quiet hemit (fun e he id => ?_) id e he
        simp only [cancelEvents, List.mem_cons, List.not_mem_nil, or_false] at he
        rcases he with rfl | rfl <;> simp [isSetupEventOf]

theorem cancelFresh_quiet {scope : CancelScope}
    (h : cancelFresh call scope store = .ok (store', result)) : Quiet store.db store'.db := by
  unfold cancelFresh at h
  split at h
  · cases h
  split at h
  · cases h
    exact .of_same rfl rfl
  · split at h
    · cases h
    · split at h
      · cases h
      · rename_i hfold
        cases h
        exact ⟨⟨_, (foldlM_cancelOne_scope hfold).orderLineItems⟩, foldlM_cancelOne_events hfold⟩

theorem cancelGated_quiet {scope : CancelScope}
    (h : cancelBookingWithCascade.gated store call scope = .ok (store', result)) :
    Quiet store.db store'.db := by
  simp only [cancelBookingWithCascade.gated] at h
  split at h
  · cases h
  · cases h
    exact .of_same rfl rfl
  · split at h
    · cases h
    · rename_i hfresh
      cases h
      have hquiet := cancelFresh_quiet hfresh
      exact ⟨hquiet.lines, hquiet.events⟩

theorem cancelBooking_quiet (h : cancelBookingWithCascade store call = .ok (store', result)) :
    Quiet store.db store'.db := by
  simp only [cancelBookingWithCascade] at h
  split at h
  · cases h
  · split at h
    · cases h
    · split at h
      · split at h
        · cases h
        · exact cancelGated_quiet h
      · exact cancelGated_quiet h

/-! ## The setup trigger -/

/-- The line is not cancelled and has arguments, be they JSON `null`. -/
def OrderLineItem.fires (l : OrderLineItem) : Bool :=
  l.fulfillmentStatus != .cancelled && l.pendingSetupTriggerArgs.isSome

def releases (db : BookingDb) (bookingId : Nat) (l : OrderLineItem) : Bool :=
  db.hasLine bookingId l && l.fires

theorem key_clearedArgs (l : OrderLineItem) :
    Keyed.key { l with pendingSetupTriggerArgs := none } = Keyed.key l := rfl

def clearArgs : Table.Assignment OrderLineItem :=
  ⟨fun l => { l with pendingSetupTriggerArgs := none }, key_clearedArgs⟩

def IsReleaseOf (bookingId : Nat) (line : OrderLineItem) (e : Event BookingEventKey BookingEvent) :
    Prop :=
  line.fulfillmentStatus ≠ .cancelled ∧
    ∃ args, line.pendingSetupTriggerArgs = some args ∧ e = setupEvent bookingId line args

variable {line : OrderLineItem}

theorem exists_isReleaseOf (bookingId : Nat) (h : line.fires = true) :
    ∃ e, IsReleaseOf bookingId line e := by
  simp only [OrderLineItem.fires, Bool.and_eq_true, bne_iff_ne] at h
  obtain ⟨args, hargs⟩ := Option.isSome_iff_exists.mp h.2
  exact ⟨_, h.1, args, hargs, rfl⟩

theorem fires_of_isReleaseOf {bookingId : Nat}
    {e : Event BookingEventKey BookingEvent} (h : IsReleaseOf bookingId line e) :
    line.fires = true := by
  obtain ⟨hlive, args, hargs, _⟩ := h
  simp [OrderLineItem.fires, hlive, hargs]

theorem isSetupEventOf_setupEvent {bookingId : Nat} {args : Jsonb SetupTriggerArgs} {id : Nat} :
    isSetupEventOf id (setupEvent bookingId line args) = true ↔ line.id = id := by
  simp [isSetupEventOf, setupEvent]

section

variable {ruleInTenant : Nat → Bool} {bookingId : Nat} {acc acc' : BookingDb × SetupEmitSummary}

theorem emitSetupOf_spec {line : OrderLineItem}
    (h : emitSetupOf ruleInTenant bookingId acc line = .ok acc') :
    acc'.1.orderLineItems =
        acc.1.orderLineItems.update (fun l => line.fires && line.id == l.id) clearArgs ∧
      ∀ e, e ∈ acc'.1.outbox.rows ↔ e ∈ acc.1.outbox.rows ∨ IsReleaseOf bookingId line e := by
  obtain ⟨db, summary⟩ := acc
  have hquiet : line.fires = false → db.orderLineItems =
      db.orderLineItems.update (fun l => line.fires && line.id == l.id) clearArgs := by
    intro hnot
    rw [Table.update_eq_self]
    intro l _
    simp [hnot]
  simp only [emitSetupOf] at h
  split at h
  · rename_i hcancelled
    cases h
    refine ⟨hquiet (by simp [OrderLineItem.fires, hcancelled]), fun e => ?_⟩
    simp [IsReleaseOf, hcancelled]
  · rename_i hlive
    cases hargs : line.pendingSetupTriggerArgs with
    | none =>
      simp only [hargs] at h
      cases h
      refine ⟨hquiet (by simp [OrderLineItem.fires, hargs]), fun e => ?_⟩
      simp [IsReleaseOf, hargs]
    | some args =>
      simp only [hargs] at h
      split at h
      · cases h
      · split at h
        · cases h
        · rename_i outbox hemit
          cases h
          have hfires : line.fires = true := by simp [OrderLineItem.fires, hlive, hargs]
          refine ⟨?_, fun e => ?_⟩
          · show db.orderLineItems.update _ _ = _
            congr 1
            funext l
            rw [hfires, Bool.true_and]
            exact Bool.beq_comm
          · show e ∈ outbox.rows ↔ _
            rw [mem_of_emit hemit]
            simp [IsReleaseOf, hlive, hargs]

theorem foldlM_emitSetupOf_spec {lines : List OrderLineItem}
    (h : lines.foldlM (emitSetupOf ruleInTenant bookingId) acc = .ok acc') :
    acc'.1.orderLineItems = acc.1.orderLineItems.update
        (fun l => lines.any fun line => line.fires && line.id == l.id) clearArgs ∧
      ∀ e, e ∈ acc'.1.outbox.rows ↔
        e ∈ acc.1.outbox.rows ∨ ∃ line ∈ lines, IsReleaseOf bookingId line e := by
  induction lines generalizing acc with
  | nil =>
    cases h
    refine ⟨(Table.update_eq_self fun _ _ => rfl).symm, fun e => ?_⟩
    simp
  | cons line lines ih =>
    rw [List.foldlM_cons] at h
    cases hline : emitSetupOf ruleInTenant bookingId acc line with
    | error e =>
      rw [hline] at h
      cases h
    | ok mid =>
      rw [hline] at h
      obtain ⟨hrows, hevents⟩ := emitSetupOf_spec hline
      obtain ⟨hrows', hevents'⟩ := ih h
      constructor
      · rw [hrows', hrows]
        exact Table.update_update (fun l => rfl) fun l _ _ => rfl
      · intro e
        rw [hevents' e, hevents e, or_assoc]
        simp only [List.mem_cons, exists_eq_or_imp]

theorem approveBookingSetupTrigger_spec {db db' : BookingDb} {summary : SetupEmitSummary}
    (h : approveBookingSetupTrigger ruleInTenant db bookingId = .ok (db', summary)) :
    db'.orderLineItems = db.orderLineItems.update (releases db bookingId) clearArgs ∧
      ∀ e, e ∈ db'.outbox.rows ↔ e ∈ db.outbox.rows ∨
        ∃ line ∈ db.orderLineItems.rows, db.hasLine bookingId line = true ∧
          IsReleaseOf bookingId line e := by
  obtain ⟨hrows, hevents⟩ := foldlM_emitSetupOf_spec h
  refine ⟨hrows.trans (Table.update_congr fun l hl => ?_), fun e => ?_⟩
  · rw [Bool.eq_iff_iff]
    simp only [releases, List.any_eq_true, List.mem_filter, Bool.and_eq_true, beq_iff_eq]
    constructor
    · rintro ⟨line, ⟨hline, hof⟩, hfires, hid⟩
      obtain rfl := db.orderLineItems.eq_of_key_eq hline hl hid
      exact ⟨hof, hfires⟩
    · rintro ⟨hof, hfires⟩
      exact ⟨l, ⟨hl, hof⟩, hfires, rfl⟩
  · rw [hevents e]
    simp only [List.mem_filter, and_assoc]

end

/-! ## A grant -/

inductive GrantSetup (db : BookingDb) (call : BookingGrantCall) (db' : BookingDb) :
    BookingGrantResult → Prop where
  /-- The booking is not decided. -/
  | open' {result : BookingGrantResult} (hresult : ∀ a b d s n t u w, result ≠ .resolved a b d s n t u w)
      (hquiet : Quiet db db') : GrantSetup db call db' result
  /-- The booking is confirmed, and its lines are released. -/
  | confirmed {a : ApprovalRow} {approvalId slots : Nat} {status : BookingStatus}
      {transitioned workflow : Bool} {summary : SetupEmitSummary}
      (hanswers : BookingAnswers db call .approved a) (hresolves : Resolves db call .approved a)
      (hlines : db'.orderLineItems =
        db.orderLineItems.update (releases db a.targetEntityId) clearArgs)
      (hevents : ∀ id e, isSetupEventOf id e = true → (e ∈ db'.outbox.rows ↔ e ∈ db.outbox.rows ∨
        ∃ line ∈ db.orderLineItems.rows, db.hasLine a.targetEntityId line = true ∧
          IsReleaseOf a.targetEntityId line e)) :
      GrantSetup db call db' (.resolved approvalId a.targetEntityId .approved status slots
        transitioned summary workflow)
  /-- The booking is rejected, and its lines wait for nothing. -/
  | rejected {a : ApprovalRow} {approvalId slots : Nat} {status : BookingStatus}
      {transitioned workflow : Bool} {summary : SetupEmitSummary}
      (hlines : db'.orderLineItems =
        db.orderLineItems.update (db.hasLine a.targetEntityId) clearArgs)
      (hevents : ∀ id e, isSetupEventOf id e = true → (e ∈ db'.outbox.rows ↔ e ∈ db.outbox.rows)) :
      GrantSetup db call db' (.resolved approvalId a.targetEntityId .rejected status slots
        transitioned summary workflow)

section

variable {ruleInTenant : Nat → Bool} {db base db' : BookingDb} {call : BookingGrantCall}
  {decision : Decision} {a : ApprovalRow} {result : BookingGrantResult}

theorem emit_granted_quiet {outbox outbox' : BookingOutbox} {workflowInstanceId : Nat}
    (h : emit outbox (grantedEvent call decision a workflowInstanceId) = .ok outbox') (id : Nat)
    (e : Event BookingEventKey BookingEvent) (he : isSetupEventOf id e = true) :
    e ∈ outbox'.rows ↔ e ∈ outbox.rows := by
  rw [mem_of_emit h]
  constructor
  · rintro (hold | rfl)
    · exact hold
    · simp [isSetupEventOf, grantedEvent] at he
  · exact Or.inl

theorem resolveBooking_setup
    (h : resolveBooking ruleInTenant base call decision a (resolvedStatus decision) =
      .ok (db', result)) (horders : base.orders = db.orders)
    (hlines : base.orderLineItems = db.orderLineItems) (houtbox : base.outbox = db.outbox)
    (hanswers : BookingAnswers db call decision a) (hresolves : Resolves db call decision a) :
    GrantSetup db call db' result := by
  simp only [resolveBooking] at h
  split at h
  · cases h
  rename_i mid summary hsetup
  have hof : (base.transition a.targetEntityId (resolvedStatus decision)).hasLine a.targetEntityId =
      db.hasLine a.targetEntityId := by
    funext l
    show base.orders.rows.any _ = _
    rw [horders]
    rfl
  -- The answer is recorded, and a workflow is told; neither concerns the lines.
  have hlast : db'.orderLineItems = mid.orderLineItems ∧
      (∀ id e, isSetupEventOf id e = true → (e ∈ db'.outbox.rows ↔ e ∈ mid.outbox.rows)) ∧
      ∃ slots transitioned workflow, result = .resolved call.approvalId a.targetEntityId decision
        (resolvedStatus decision) slots transitioned summary workflow := by
    cases hworkflow : a.workflowInstanceId with
    | none =>
      simp only [hworkflow] at h
      cases h
      exact ⟨rfl, fun _ _ _ => Iff.rfl, _, _, _, rfl⟩
    | some w =>
      simp only [hworkflow] at h
      split at h
      · cases h
      · rename_i outbox hemit
        cases h
        exact ⟨rfl, emit_granted_quiet hemit, _, _, _, rfl⟩
  obtain ⟨hlast, hsame, slots, transitioned, workflow, rfl⟩ := hlast
  cases decision with
  | approved =>
    obtain ⟨hrows, hevents⟩ := approveBookingSetupTrigger_spec hsetup
    refine .confirmed hanswers hresolves ?_ fun id e he => ?_
    · rw [hlast, hrows]
      show base.orderLineItems.update _ _ = _
      rw [hlines]
      congr 1
      funext l
      simp only [releases, hof]
    · rw [hsame id e he, hevents e, hof]
      show e ∈ base.outbox.rows ∨ (∃ line ∈ base.orderLineItems.rows, _) ↔ _
      rw [houtbox, hlines]
  | rejected =>
    cases hsetup
    refine .rejected ?_ fun id e he => ?_
    · rw [hlast]
      show base.orderLineItems.update ((base.transition _ _).hasLine _) _ = _
      rw [hof, hlines]
      rfl
    · rw [hsame id e he]
      show e ∈ base.outbox.rows ↔ _
      rw [houtbox]

theorem grantBookingApproval_setup
    (h : grantBookingApproval ruleInTenant db call = .ok (db', result)) :
    GrantSetup db call db' result := by
  rcases grantBookingApproval_spec h with ⟨rfl, hopen⟩ |
    ⟨decision, a, hanswers, ⟨_, rfl, hopen⟩ | ⟨hresolves, hresolved⟩⟩
  · exact .open' hopen (.of_same rfl rfl)
  · exact .open' hopen (.of_same rfl rfl)
  · exact resolveBooking_setup hresolved rfl rfl rfl hanswers hresolves

end

/-! ## The creation -/

theorem insertAll_rows {ρ κ : Type} [Keyed ρ κ] [DecidableEq κ] {t t' : Table ρ} {rows : List ρ}
    (h : insertAll t rows = .ok t') : t'.rows = t.rows ++ rows := by
  induction rows generalizing t with
  | nil =>
    cases h
    exact (List.append_nil _).symm
  | cons row rows ih =>
    simp only [insertAll, List.foldlM_cons] at h
    cases hinsert : t.insert? row with
    | none =>
      rw [hinsert] at h
      cases h
    | some mid =>
      rw [hinsert] at h
      rw [ih h, (Table.insert?_eq_some hinsert).1, List.append_assoc]
      rfl

def IsCreateSetup (uuid : PlanUuid → Nat) (input : BookingInput) (plan : AttachPlan)
    (e : Event BookingEventKey BookingEvent) : Prop :=
  plan.anyPendingApproval = false ∧ ∃ line ∈ plan.orderLineItems, ∃ setup,
    line.setupEmit = some setup ∧ e = createSetupEvent uuid input line setup

inductive CreatesSetup (uuid : PlanUuid → Nat) (store : CreateStore) (input : BookingInput)
    (plan : AttachPlan) (key : String) (store' : CreateStore) : Prop where
  /-- The key was used before. -/
  | cached (hused : store.operations.get? key ≠ none) (hsame : store' = store)
  | created (hnew : store.operations.get? key = none)
      (hlines : store'.db.orderLineItems.rows = store.db.orderLineItems.rows ++
        plan.orderLineItems.map (orderLineItemRowOf uuid))
      (hevents : ∀ id e, isSetupEventOf id e = true →
        (e ∈ store'.db.outbox.rows ↔ e ∈ store.db.outbox.rows ∨ IsCreateSetup uuid input plan e))

section

variable {uuid : PlanUuid → Nat} {input : BookingInput} {plan : AttachPlan} {key : String} {now : Nat}

theorem insertPlan_setup {db db' : BookingDb} (h : insertPlan uuid db input plan key now = .ok db') :
    db'.orderLineItems.rows = db.orderLineItems.rows ++
        plan.orderLineItems.map (orderLineItemRowOf uuid) ∧
      ∀ id e, isSetupEventOf id e = true →
        (e ∈ db'.outbox.rows ↔ e ∈ db.outbox.rows ∨ IsCreateSetup uuid input plan e) := by
  simp only [insertPlan] at h
  split at h
  · cases h
  split at h
  · cases h
  split at h
  · cases h
  split at h
  · cases h
  split at h
  · cases h
  split at h
  · cases h
  rename_i lines hlines
  split at h
  · cases h
  split at h
  · cases h
  rename_i outbox hemit
  cases h
  refine ⟨insertAll_rows hlines, fun id e he => ?_⟩
  show e ∈ outbox.rows ↔ _
  rw [mem_of_emitAll hemit]
  refine or_congr_right ?_
  have hcreated : e ≠ ⟨.bookingCreated input.bookingId key,
      .bookingCreated input.bookingId input.locationId input.status now⟩ := by
    rintro rfl
    simp [isSetupEventOf] at he
  simp only [List.mem_append, List.mem_singleton, hcreated, or_false, IsCreateSetup]
  cases plan.anyPendingApproval with
  | true => simp
  | false =>
    simp only [Bool.false_eq_true, if_false, List.mem_filterMap, Option.map_eq_some_iff, true_and,
      eq_comm (a := e)]

theorem createBooking_setup {valid : BookingInput → AttachPlan → Bool} {store store' : CreateStore}
    {result : CreateResult}
    (h : createBookingWithAttachPlan uuid valid store input plan key now = .ok (store', result)) :
    CreatesSetup uuid store input plan key store' := by
  simp only [createBookingWithAttachPlan] at h
  split at h
  · cases h
  · rename_i hgate
    cases h
    refine .cached ?_ rfl
    intro hnew
    rw [gate_eq_proceed.mpr hnew] at hgate
    cases hgate
  · rename_i hgate
    split at h
    · cases h
    split at h
    · cases h
    split at h
    · cases h
    rename_i hinsert
    cases h
    obtain ⟨hlines, hevents⟩ := insertPlan_setup hinsert
    exact .created (gate_eq_proceed.mp hgate) hlines hevents

end

end Prequest.Booking
