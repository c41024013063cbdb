import Prequest.Booking.SetupEvents
import Prequest.Lib.Run

/-!
# Setup work orders over a run

A line that carries a setup hint asks for its setup work order once, when its booking is
created or confirmed, and no other line ever does. The plan writes JSON `null` where a line
has no hint, and both readers of the two fields compare with SQL `NULL`: the creation emits
for such a line at once, and the setup trigger when the booking is confirmed.

* `buildAttachPlan_placesHints`: a plan that does not wait has no hint to read later.
* `setupLaw_run`: the law over a run.
-/

namespace Prequest.Booking

open Prequest.Lib Prequest.Outbox Prequest.Approval Prequest.Command Prequest.Orders

/-! ## The run -/

/-- The field is there and an object. -/
def isObject {α : Type} : Option (Jsonb α) → Bool
  | some (.object _) => true
  | _ => false

def carriesHint (plan : AttachPlan) (line : AttachPlanOrderLineItem) : Bool :=
  if plan.anyPendingApproval then isObject line.pendingSetupTriggerArgs else isObject line.setupEmit

def hintedIds (uuid : PlanUuid → Nat) (plan : AttachPlan) : List Nat :=
  (plan.orderLineItems.filter (carriesHint plan)).map fun line => uuid line.id

/-- The tables, with the lines that carry a hint, those whose booking was rejected, and those whose
setup work order is due. -/
structure SetupWorld where
  store : BookingStore
  attachOperations : Table (CommandOperation String (BookingInput × AttachPlan) CreateResult) :=
    Table.empty
  hinted : List Nat := []
  dropped : List Nat := []
  due : List Nat := []

/-- A call. Approval rows are also written by other commands, in any way. -/
inductive SetupCall where
  | create (input : BookingInput) (plan : AttachPlan) (key : String) (now : Nat)
  | approvals (approvals : Table ApprovalRow)
  | grant (call : BookingGrantCall)
  | cancel (call : CancelCall)
  | cancelLines (call : CancelLinesCall)

/-- A line of the booking that its confirmation releases: it carries a hint, and was neither
cancelled nor rejected before. -/
def newlyDue (db : BookingDb) (hinted dropped : List Nat) (bookingId : Nat) (l : OrderLineItem) : Bool :=
  db.hasLine bookingId l && l.fulfillmentStatus != .cancelled && hinted.contains l.id &&
    !dropped.contains l.id

section

variable (w : SetupWorld)

def SetupWorld.releasedIds (bookingId : Nat) : List Nat :=
  (w.store.db.orderLineItems.rows.filter
    (newlyDue w.store.db w.hinted w.dropped bookingId)).map OrderLineItem.id

def SetupWorld.lineIds (bookingId : Nat) : List Nat :=
  (w.store.db.orderLineItems.rows.filter (w.store.db.hasLine bookingId)).map OrderLineItem.id

def SetupWorld.planned (uuid : PlanUuid → Nat) (plan : AttachPlan) : SetupWorld :=
  { w with
    hinted := w.hinted ++ hintedIds uuid plan
    due := if plan.anyPendingApproval then w.due else w.due ++ hintedIds uuid plan }

def SetupWorld.decided : BookingGrantResult → SetupWorld
  | .resolved _ bookingId .approved _ _ _ _ _ => { w with due := w.due ++ w.releasedIds bookingId }
  | .resolved _ bookingId .rejected _ _ _ _ _ => { w with dropped := w.dropped ++ w.lineIds bookingId }
  | _ => w

def SetupWorld.setDb (db : BookingDb) : SetupWorld :=
  { w with store := { w.store with db := db } }

end

section

variable (uuid : PlanUuid → Nat) (valid : BookingInput → AttachPlan → Bool) (ruleInTenant : Nat → Bool)

/-- One call. A call that raises changes nothing. -/
def setupStep (w : SetupWorld) : SetupCall → SetupWorld
  | .create input plan key now =>
      match createBookingWithAttachPlan uuid valid ⟨w.store.db, w.attachOperations⟩ input plan key
          now with
      | .error _ => w
      | .ok (store, _) =>
          let after := if (w.attachOperations.get? key).isNone then w.planned uuid plan else w
          { after.setDb store.db with attachOperations := store.operations }
  | .approvals approvals => w.setDb { w.store.db with approvals := approvals }
  | .grant call =>
      match grantBookingApproval ruleInTenant w.store.db call with
      | .error _ => w
      | .ok (db, result) => (w.decided result).setDb db
  | .cancel call =>
      match cancelBookingWithCascade w.store call with
      | .error _ => w
      | .ok (store, _) => { w with store := store }
  | .cancelLines call =>
      match cancelOrderLinesWithCascade w.store call with
      | .error _ => w
      | .ok (store, _) => { w with store := store }

end

def SetupWorld.start (series : Table Recurrence.SeriesRow) : SetupWorld where
  store :=
    { db := { bookings := Table.empty, slots := Table.empty, approvals := Table.empty }
      series := series }

/-! ## The law -/

def SetupWorld.setupCount (w : SetupWorld) (lineId : Nat) : Nat :=
  w.store.db.outbox.rows.countP (isSetupEventOf lineId)

/-- Once for each line that is due, and never for another. -/
def SetupLaw (w : SetupWorld) : Prop :=
  ∀ lineId, w.setupCount lineId = if lineId ∈ w.due then 1 else 0

/-! ## The condition -/

/-- A plan that does not wait has its hints in the field that is read at once. -/
def PlacesHints (plan : AttachPlan) : Prop :=
  plan.anyPendingApproval = false →
    ∀ line ∈ plan.orderLineItems, isObject line.pendingSetupTriggerArgs = false

theorem buildAttachPlan_placesHints {env : PlanEnv} {args : BuildAttachPlanArgs} {plan : AttachPlan}
    (h : buildAttachPlan env args = .ok plan) : PlacesHints plan := by
  intro hnow line hline
  have hpending := (buildAttachPlan_ok h).2.1.symm.trans hnow
  simp only [buildAttachPlan] at h
  split at h
  · cases h
  split at h
  · cases h
  split at h
  · cases h
  split at h
  · cases h
  cases h
  obtain ⟨hydrated, _, rfl⟩ := List.mem_map.mp hline
  simp [planOrderLineItem, hpending, isObject]

theorem planOfApprovals_placesHints (approvals : List AttachPlanApproval) :
    PlacesHints (planOfApprovals approvals) :=
  fun _ _ h => absurd h List.not_mem_nil

/-- No JSON `null` is read as a hint: not in a plan that does not wait, and not of a line that a
confirming answer finds uncancelled. -/
def ReleasesHinted (w : SetupWorld) : SetupCall → Prop
  | .create _ plan _ _ =>
      plan.anyPendingApproval = false → ∀ line ∈ plan.orderLineItems, line.setupEmit ≠ some .null
  | .grant call => ∀ a, BookingAnswers w.store.db call .approved a →
      Resolves w.store.db call .approved a →
        ∀ l ∈ w.store.db.orderLineItems.rows, w.store.db.hasLine a.targetEntityId l = true →
          l.fulfillmentStatus ≠ .cancelled → l.pendingSetupTriggerArgs = some .null →
            l.id ∈ w.hinted
  | _ => True

/-! ## The invariant -/

/-- The events, and what the lines still hold, agree with what the plans and decisions said. -/
structure SetupInv (db : BookingDb) (hinted dropped due : List Nat) : Prop where
  keyed : ∀ e ∈ db.outbox.rows, ∀ id, isSetupEventOf id e = true →
    e.idempotencyKey = .setupWorkOrderCreateRequired id
  emitted : ∀ id, (∃ e ∈ db.outbox.rows, isSetupEventOf id e = true) ↔ id ∈ due
  known : ∀ id, id ∈ hinted ∨ id ∈ dropped ∨ id ∈ due → ∃ l ∈ db.orderLineItems.rows, l.id = id
  waiting : ∀ l ∈ db.orderLineItems.rows, l.id ∈ hinted → l.id ∉ due → l.id ∉ dropped →
    l.fulfillmentStatus ≠ .cancelled → isObject l.pendingSetupTriggerArgs = true
  objects : ∀ l ∈ db.orderLineItems.rows, isObject l.pendingSetupTriggerArgs = true → l.id ∈ hinted
  cleared : ∀ l ∈ db.orderLineItems.rows, l.id ∈ dropped → l.pendingSetupTriggerArgs = none

theorem SetupInv.start (series : Table Recurrence.SeriesRow) :
    SetupInv (SetupWorld.start series).store.db [] [] [] where
  keyed e he := absurd he List.not_mem_nil
  emitted id := by simp [SetupWorld.start, Table.empty]
  known id h := by simp at h
  waiting l hl := absurd hl List.not_mem_nil
  objects l hl := absurd hl List.not_mem_nil
  cleared l hl := absurd hl List.not_mem_nil

variable {input : BookingInput}

section

variable {db db' : BookingDb} {hinted dropped due : List Nat}

theorem SetupInv.setupCount (h : SetupInv db hinted dropped due) (lineId : Nat) :
    db.outbox.rows.countP (isSetupEventOf lineId) = if lineId ∈ due then 1 else 0 := by
  split
  · rename_i hdue
    obtain ⟨e, he, hof⟩ := (h.emitted lineId).mpr hdue
    have honly : ∀ e' ∈ db.outbox.rows, isSetupEventOf lineId e' = true ↔ (e' == e) = true := by
      intro e' he'
      rw [beq_iff_eq]
      constructor
      · intro hof'
        refine db.outbox.eq_of_key_eq he' he ?_
        exact (h.keyed e' he' lineId hof').trans (h.keyed e he lineId hof).symm
      · rintro rfl
        exact hof
    rw [List.countP_congr honly]
    exact List.count_eq_one_of_mem (List.Nodup.of_map _ db.outbox.nodup) he
  · rename_i hnot
    refine List.countP_eq_zero.mpr fun e he hof => ?_
    exact hnot ((h.emitted lineId).mp ⟨e, he, hof⟩)

theorem SetupInv.events_of_same (h : SetupInv db hinted dropped due)
    (hevents : ∀ id e, isSetupEventOf id e = true → (e ∈ db'.outbox.rows ↔ e ∈ db.outbox.rows)) :
    (∀ e ∈ db'.outbox.rows, ∀ id, isSetupEventOf id e = true →
        e.idempotencyKey = .setupWorkOrderCreateRequired id) ∧
      ∀ id, (∃ e ∈ db'.outbox.rows, isSetupEventOf id e = true) ↔ id ∈ due := by
  refine ⟨fun e he id hof => h.keyed e ((hevents id e hof).mp he) id hof, fun id => ?_⟩
  rw [← h.emitted id]
  constructor
  · rintro ⟨e, he, hof⟩
    exact ⟨e, (hevents id e hof).mp he, hof⟩
  · rintro ⟨e, he, hof⟩
    exact ⟨e, (hevents id e hof).mpr he, hof⟩

variable {id : Nat} {p : OrderLineItem → Bool}

theorem known_update {f : Table.Assignment OrderLineItem}
    (h : ∃ l ∈ db.orderLineItems.rows, l.id = id)
    (hrows : db'.orderLineItems = db.orderLineItems.update p f) :
    ∃ l ∈ db'.orderLineItems.rows, l.id = id := by
  obtain ⟨l, hl, rfl⟩ := h
  rw [hrows]
  exact ⟨Table.updated p f l, Table.mem_update.mpr ⟨l, hl, rfl⟩, Table.key_updated p f l⟩

theorem SetupInv.quiet (h : SetupInv db hinted dropped due) (hquiet : Quiet db db') :
    SetupInv db' hinted dropped due := by
  obtain ⟨p, hrows⟩ := hquiet.lines
  obtain ⟨hkeyed, hemitted⟩ := h.events_of_same hquiet.events
  refine ⟨hkeyed, hemitted, fun id hid => known_update (h.known id hid) hrows, ?_, ?_, ?_⟩
  · intro l' hl' hhinted hdue hdropped hlive
    rw [hrows] at hl'
    obtain ⟨l, hl, ⟨_, rfl⟩ | ⟨_, rfl⟩⟩ := Table.mem_update_iff.mp hl'
    · exact absurd rfl hlive
    · exact h.waiting l' hl hhinted hdue hdropped hlive
  · intro l' hl' hobject
    rw [hrows] at hl'
    obtain ⟨l, hl, ⟨_, rfl⟩ | ⟨_, rfl⟩⟩ := Table.mem_update_iff.mp hl'
    · cases hobject
    · exact h.objects l' hl hobject
  · intro l' hl' hdropped
    rw [hrows] at hl'
    obtain ⟨l, hl, ⟨_, rfl⟩ | ⟨_, rfl⟩⟩ := Table.mem_update_iff.mp hl'
    · rfl
    · exact h.cleared l' hl hdropped

theorem SetupInv.rejected (h : SetupInv db hinted dropped due)
    (hrows : db'.orderLineItems = db.orderLineItems.update p clearArgs)
    (hevents : ∀ id e, isSetupEventOf id e = true → (e ∈ db'.outbox.rows ↔ e ∈ db.outbox.rows)) :
    SetupInv db' hinted
      (dropped ++ (db.orderLineItems.rows.filter p).map OrderLineItem.id) due := by
  obtain ⟨hkeyed, hemitted⟩ := h.events_of_same hevents
  have hdropped : ∀ l ∈ db.orderLineItems.rows,
      (l.id ∈ dropped ++ (db.orderLineItems.rows.filter p).map OrderLineItem.id ↔
        l.id ∈ dropped ∨ p l = true) := by
    intro l hl
    rw [List.mem_append, List.mem_map]
    refine or_congr_right ⟨?_, fun hp => ⟨l, List.mem_filter.mpr ⟨hl, hp⟩, rfl⟩⟩
    rintro ⟨l₁, hmem, hid⟩
    obtain ⟨hl₁, hp⟩ := List.mem_filter.mp hmem
    rwa [db.orderLineItems.eq_of_key_eq hl₁ hl hid] at hp
  refine ⟨hkeyed, hemitted, fun id hid => known_update ?_ hrows, ?_, ?_, ?_⟩
  · rcases hid with hhinted | hdrop | hdue
    · exact h.known id (.inl hhinted)
    · rcases List.mem_append.mp hdrop with hold | hnew
      · exact h.known id (.inr (.inl hold))
      · obtain ⟨l, hl, rfl⟩ := List.mem_map.mp hnew
        exact ⟨l, (List.mem_filter.mp hl).1, rfl⟩
    · exact h.known id (.inr (.inr hdue))
  · intro l' hl' hhinted hdue hkept hlive
    rw [hrows] at hl'
    obtain ⟨l, hl, ⟨hp, rfl⟩ | ⟨_, rfl⟩⟩ := Table.mem_update_iff.mp hl'
    · exact absurd ((hdropped l hl).mpr (.inr hp)) hkept
    · exact h.waiting l' hl hhinted hdue (fun hold => hkept ((hdropped l' hl).mpr (.inl hold))) hlive
  · intro l' hl' hobject
    rw [hrows] at hl'
    obtain ⟨l, hl, ⟨_, rfl⟩ | ⟨_, rfl⟩⟩ := Table.mem_update_iff.mp hl'
    · cases hobject
    · exact h.objects l' hl hobject
  · intro l' hl' hdrop
    rw [hrows] at hl'
    obtain ⟨l, hl, ⟨_, rfl⟩ | ⟨hnot, rfl⟩⟩ := Table.mem_update_iff.mp hl'
    · rfl
    · rcases (hdropped l' hl).mp hdrop with hold | hp
      · exact h.cleared l' hl hold
      · exact absurd hp hnot

variable {bookingId : Nat} {uuid : PlanUuid → Nat}

theorem newlyDue_iff {l : OrderLineItem} : newlyDue db hinted dropped bookingId l = true ↔
      db.hasLine bookingId l = true ∧ l.fulfillmentStatus ≠ .cancelled ∧ l.id ∈ hinted ∧
        l.id ∉ dropped := by
  simp [newlyDue, and_assoc]

theorem SetupInv.newlyDue_of_releases (h : SetupInv db hinted dropped due)
    (hnull : ∀ l ∈ db.orderLineItems.rows, db.hasLine bookingId l = true →
      l.fulfillmentStatus ≠ .cancelled → l.pendingSetupTriggerArgs = some .null → l.id ∈ hinted)
    {l : OrderLineItem} (hl : l ∈ db.orderLineItems.rows) (hof : db.hasLine bookingId l = true)
    (hfires : l.fires = true) : newlyDue db hinted dropped bookingId l = true := by
  simp only [OrderLineItem.fires, Bool.and_eq_true, bne_iff_ne] at hfires
  obtain ⟨hlive, hsome⟩ := hfires
  refine newlyDue_iff.mpr ⟨hof, hlive, ?_, fun hdropped => ?_⟩
  · obtain ⟨args, hargs⟩ := Option.isSome_iff_exists.mp hsome
    cases args with
    | null => exact hnull l hl hof hlive hargs
    | object a =>
      refine h.objects l hl ?_
      rw [hargs]
      rfl
  · rw [h.cleared l hl hdropped] at hsome
    cases hsome

theorem SetupInv.confirmed (h : SetupInv db hinted dropped due)
    (hnull : ∀ l ∈ db.orderLineItems.rows, db.hasLine bookingId l = true →
      l.fulfillmentStatus ≠ .cancelled → l.pendingSetupTriggerArgs = some .null → l.id ∈ hinted)
    (hrows : db'.orderLineItems = db.orderLineItems.update (releases db bookingId) clearArgs)
    (hevents : ∀ id e, isSetupEventOf id e = true → (e ∈ db'.outbox.rows ↔ e ∈ db.outbox.rows ∨
      ∃ line ∈ db.orderLineItems.rows, db.hasLine bookingId line = true ∧
        IsReleaseOf bookingId line e)) :
    SetupInv db' hinted dropped
      (due ++ (db.orderLineItems.rows.filter (newlyDue db hinted dropped bookingId)).map
        OrderLineItem.id) := by
  have hdue : ∀ l ∈ db.orderLineItems.rows, newlyDue db hinted dropped bookingId l = true →
      l.id ∈ due ++ (db.orderLineItems.rows.filter (newlyDue db hinted dropped bookingId)).map
        OrderLineItem.id := by
    intro l hl hnew
    exact List.mem_append_right _ (List.mem_map.mpr ⟨l, List.mem_filter.mpr ⟨hl, hnew⟩, rfl⟩)
  refine ⟨?_, fun id => ⟨?_, ?_⟩, fun id hid => known_update ?_ hrows, ?_, ?_, ?_⟩
  · intro e he id hof
    rcases (hevents id e hof).mp he with hold | ⟨line, _, _, _, args, _, rfl⟩
    · exact h.keyed e hold id hof
    · rw [isSetupEventOf_setupEvent] at hof
      rw [← hof]
      rfl
  · rintro ⟨e, he, hof⟩
    rcases (hevents id e hof).mp he with hold | ⟨line, hline, hlineOf, hrelease⟩
    · exact List.mem_append_left _ ((h.emitted id).mp ⟨e, hold, hof⟩)
    · obtain rfl : line.id = id := by
        obtain ⟨_, args, _, rfl⟩ := hrelease
        exact isSetupEventOf_setupEvent.mp hof
      exact hdue line hline (h.newlyDue_of_releases hnull hline hlineOf (fires_of_isReleaseOf hrelease))
  · intro hid
    by_cases hold : id ∈ due
    · obtain ⟨e, he, hof⟩ := (h.emitted id).mpr hold
      exact ⟨e, (hevents id e hof).mpr (.inl he), hof⟩
    · obtain ⟨l, hmem, rfl⟩ := List.mem_map.mp ((List.mem_append.mp hid).resolve_left hold)
      obtain ⟨hl, hnew⟩ := List.mem_filter.mp hmem
      obtain ⟨hof, hlive, hhinted, hdropped⟩ := newlyDue_iff.mp hnew
      have hobject := h.waiting l hl hhinted hold hdropped hlive
      have hfires : l.fires = true := by
        cases hargs : l.pendingSetupTriggerArgs with
        | none =>
          rw [hargs] at hobject
          cases hobject
        | some args => simp [OrderLineItem.fires, hlive, hargs]
      obtain ⟨e, hrelease⟩ := exists_isReleaseOf bookingId hfires
      have hofLine : isSetupEventOf l.id e = true := by
        obtain ⟨_, args, _, rfl⟩ := hrelease
        exact isSetupEventOf_setupEvent.mpr rfl
      exact ⟨e, (hevents l.id e hofLine).mpr (.inr ⟨l, hl, hof, hrelease⟩), hofLine⟩
  · rcases hid with hhinted | hdropped | hdue
    · exact h.known id (.inl hhinted)
    · exact h.known id (.inr (.inl hdropped))
    · rcases List.mem_append.mp hdue with hold | hnew
      · exact h.known id (.inr (.inr hold))
      · obtain ⟨l, hl, rfl⟩ := List.mem_map.mp hnew
        exact ⟨l, (List.mem_filter.mp hl).1, rfl⟩
  · intro l' hl' hhinted hnotDue hdropped hlive
    rw [hrows] at hl'
    obtain ⟨l, hl, ⟨hrel, rfl⟩ | ⟨_, rfl⟩⟩ := Table.mem_update_iff.mp hl'
    · simp only [releases, Bool.and_eq_true] at hrel
      exact absurd (hdue l hl (h.newlyDue_of_releases hnull hl hrel.1 hrel.2)) hnotDue
    · exact h.waiting l' hl hhinted (fun hold => hnotDue (List.mem_append_left _ hold)) hdropped hlive
  · intro l' hl' hobject
    rw [hrows] at hl'
    obtain ⟨l, hl, ⟨_, rfl⟩ | ⟨_, rfl⟩⟩ := Table.mem_update_iff.mp hl'
    · cases hobject
    · exact h.objects l' hl hobject
  · intro l' hl' hdropped
    rw [hrows] at hl'
    obtain ⟨l, hl, ⟨_, rfl⟩ | ⟨_, rfl⟩⟩ := Table.mem_update_iff.mp hl'
    · rfl
    · exact h.cleared l' hl hdropped

structure AddsLines (uuid : PlanUuid → Nat) (plan : AttachPlan) (db db' : BookingDb) : Prop where
  rows : db'.orderLineItems.rows =
    db.orderLineItems.rows ++ plan.orderLineItems.map (orderLineItemRowOf uuid)

namespace AddsLines

variable {uuid : PlanUuid → Nat} {plan : AttachPlan} (h : AddsLines uuid plan db db')

include h

variable {l : OrderLineItem}

theorem mem_iff : l ∈ db'.orderLineItems.rows ↔ l ∈ db.orderLineItems.rows ∨
      ∃ line ∈ plan.orderLineItems, orderLineItemRowOf uuid line = l := by
  rw [h.rows, List.mem_append, List.mem_map]

variable {line : AttachPlanOrderLineItem}

theorem fresh (hline : line ∈ plan.orderLineItems)
    (hl : l ∈ db.orderLineItems.rows) : l.id ≠ uuid line.id := by
  have hnodup := db'.orderLineItems.nodup
  rw [h.rows, List.map_append] at hnodup
  intro hid
  refine (List.nodup_append.mp hnodup).2.2 l.id (List.mem_map_of_mem hl) (uuid line.id) ?_ hid
  exact List.mem_map_of_mem (List.mem_map_of_mem hline)

theorem line_unique {line' : AttachPlanOrderLineItem} (hline : line ∈ plan.orderLineItems)
    (hline' : line' ∈ plan.orderLineItems) (hid : uuid line.id = uuid line'.id) : line = line' := by
  have hnodup := db'.orderLineItems.nodup
  rw [h.rows, List.map_append] at hnodup
  have hplan := (List.nodup_append.mp hnodup).2.1
  rw [List.map_map] at hplan
  exact List.inj_on_of_nodup_map hplan hline hline' hid

theorem mem_hintedIds (hline : line ∈ plan.orderLineItems) :
    uuid line.id ∈ hintedIds uuid plan ↔ carriesHint plan line = true := by
  rw [hintedIds, List.mem_map]
  constructor
  · rintro ⟨line', hmem, hid⟩
    obtain ⟨hline', hhint⟩ := List.mem_filter.mp hmem
    rwa [h.line_unique hline' hline hid] at hhint
  · intro hhint
    exact ⟨line, List.mem_filter.mpr ⟨hline, hhint⟩, rfl⟩

theorem not_mem_hintedIds (hl : l ∈ db.orderLineItems.rows) : l.id ∉ hintedIds uuid plan := by
  intro hmem
  obtain ⟨line, hline, hid⟩ := List.mem_map.mp hmem
  exact h.fresh (List.mem_filter.mp hline).1 hl hid.symm

end AddsLines

theorem isSetupEventOf_createSetupEvent {line : AttachPlanOrderLineItem}
    {setup : Jsonb AttachPlanSetupEmit} :
    isSetupEventOf id (createSetupEvent uuid input line setup) = true ↔ uuid line.id = id := by
  simp [isSetupEventOf, createSetupEvent]

variable {plan : AttachPlan}

/-- The events of a plan that does not wait are about its hinted lines, unless a JSON `null` is read
as a hint. -/
theorem isCreateSetup_iff (input : BookingInput) (hnow : plan.anyPendingApproval = false)
    (hnull : ∀ line ∈ plan.orderLineItems, line.setupEmit ≠ some .null) :
    (∃ e, isSetupEventOf id e = true ∧ IsCreateSetup uuid input plan e) ↔
      id ∈ hintedIds uuid plan := by
  rw [hintedIds, List.mem_map]
  constructor
  · rintro ⟨e, hof, _, line, hline, setup, hsetup, rfl⟩
    refine ⟨line, List.mem_filter.mpr ⟨hline, ?_⟩, isSetupEventOf_createSetupEvent.mp hof⟩
    cases setup with
    | null => exact absurd hsetup (hnull line hline)
    | object a => simp [carriesHint, hnow, hsetup, isObject]
  · rintro ⟨line, hmem, rfl⟩
    obtain ⟨hline, hhint⟩ := List.mem_filter.mp hmem
    cases hsetup : line.setupEmit with
    | none => simp [carriesHint, hnow, hsetup, isObject] at hhint
    | some setup =>
      exact ⟨_, isSetupEventOf_createSetupEvent.mpr rfl, hnow, line, hline, setup, hsetup, rfl⟩

def dueAfter (uuid : PlanUuid → Nat) (plan : AttachPlan) (due : List Nat) : List Nat :=
  if plan.anyPendingApproval then due else due ++ hintedIds uuid plan

theorem mem_dueAfter : id ∈ dueAfter uuid plan due ↔
      id ∈ due ∨ plan.anyPendingApproval = false ∧ id ∈ hintedIds uuid plan := by
  unfold dueAfter
  cases plan.anyPendingApproval <;> simp

theorem SetupInv.planned (h : SetupInv db hinted dropped due)
    (hplaces : PlacesHints plan) (hnull : plan.anyPendingApproval = false →
      ∀ line ∈ plan.orderLineItems, line.setupEmit ≠ some .null)
    (hadds : AddsLines uuid plan db db') (hevents : ∀ id e, isSetupEventOf id e = true →
      (e ∈ db'.outbox.rows ↔ e ∈ db.outbox.rows ∨ IsCreateSetup uuid input plan e)) :
    SetupInv db' (hinted ++ hintedIds uuid plan) dropped (dueAfter uuid plan due) := by
  refine ⟨?_, fun id => ?_, fun id hid => ?_, ?_, ?_, ?_⟩
  · intro e he id hof
    rcases (hevents id e hof).mp he with hold | ⟨_, line, _, setup, _, rfl⟩
    · exact h.keyed e hold id hof
    · rw [isSetupEventOf_createSetupEvent] at hof
      rw [← hof]
      rfl
  · rw [mem_dueAfter, ← h.emitted id]
    constructor
    · rintro ⟨e, he, hof⟩
      rcases (hevents id e hof).mp he with hold | hnew
      · exact .inl ⟨e, hold, hof⟩
      · exact .inr ⟨hnew.1, (isCreateSetup_iff input hnew.1 (hnull hnew.1)).mp ⟨e, hof, hnew⟩⟩
    · rintro (⟨e, he, hof⟩ | ⟨hnow, hid⟩)
      · exact ⟨e, (hevents id e hof).mpr (.inl he), hof⟩
      · obtain ⟨e, hof, hnew⟩ := (isCreateSetup_iff input hnow (hnull hnow)).mpr hid
        exact ⟨e, (hevents id e hof).mpr (.inr hnew), hof⟩
  · have hold : (∃ l ∈ db.orderLineItems.rows, l.id = id) → ∃ l ∈ db'.orderLineItems.rows, l.id = id := by
      rintro ⟨l, hl, hid⟩
      exact ⟨l, hadds.mem_iff.mpr (.inl hl), hid⟩
    have hnew : id ∈ hintedIds uuid plan → ∃ l ∈ db'.orderLineItems.rows, l.id = id := by
      intro hmem
      obtain ⟨line, hline, rfl⟩ := List.mem_map.mp hmem
      exact ⟨_, hadds.mem_iff.mpr (.inr ⟨line, (List.mem_filter.mp hline).1, rfl⟩), rfl⟩
    rcases hid with hhinted | hdropped | hdue
    · rcases List.mem_append.mp hhinted with hid | hid
      · exact hold (h.known id (.inl hid))
      · exact hnew hid
    · exact hold (h.known id (.inr (.inl hdropped)))
    · rcases mem_dueAfter.mp hdue with hid | ⟨_, hid⟩
      · exact hold (h.known id (.inr (.inr hid)))
      · exact hnew hid
  · intro l hl hhinted hdue hdropped hlive
    rw [mem_dueAfter, not_or] at hdue
    rcases hadds.mem_iff.mp hl with hold | ⟨line, hline, rfl⟩
    · have hwas := (List.mem_append.mp hhinted).resolve_right (hadds.not_mem_hintedIds hold)
      exact h.waiting l hold hwas hdue.1 hdropped hlive
    · have hhint : uuid line.id ∈ hintedIds uuid plan := by
        refine (List.mem_append.mp hhinted).resolve_left fun hwas => ?_
        obtain ⟨l₀, hl₀, hid⟩ := h.known _ (.inl hwas)
        exact hadds.fresh hline hl₀ hid
      have hwaits : plan.anyPendingApproval = true := by
        by_contra hnow
        exact hdue.2 ⟨Bool.eq_false_iff.mpr hnow, hhint⟩
      have hcarries := (hadds.mem_hintedIds hline).mp hhint
      rwa [carriesHint, if_pos hwaits] at hcarries
  · intro l hl hobject
    rcases hadds.mem_iff.mp hl with hold | ⟨line, hline, rfl⟩
    · exact List.mem_append_left _ (h.objects l hold hobject)
    · refine List.mem_append_right _ ((hadds.mem_hintedIds hline).mpr ?_)
      by_cases hwaits : plan.anyPendingApproval = true
      · rw [carriesHint, if_pos hwaits]
        exact hobject
      · have hnone := hplaces (Bool.eq_false_iff.mpr hwaits) line hline
        rw [show isObject line.pendingSetupTriggerArgs = true from hobject] at hnone
        cases hnone
  · intro l hl hdropped
    rcases hadds.mem_iff.mp hl with hold | ⟨line, hline, rfl⟩
    · exact h.cleared l hold hdropped
    · obtain ⟨l₀, hl₀, hid⟩ := h.known _ (.inr (.inl hdropped))
      exact absurd hid (hadds.fresh hline hl₀)

end

/-! ## The run -/

section

variable {uuid : PlanUuid → Nat} {valid : BookingInput → AttachPlan → Bool} {ruleInTenant : Nat → Bool}

def SetupWorld.Inv (w : SetupWorld) : Prop := SetupInv w.store.db w.hinted w.dropped w.due

def SetupCall.Placed : SetupCall → Prop
  | .create _ plan _ _ => PlacesHints plan
  | _ => True

variable {w : SetupWorld}

theorem grant_inv (h : w.Inv) {call : BookingGrantCall} (hok : ReleasesHinted w (.grant call)) :
    (setupStep uuid valid ruleInTenant w (.grant call)).Inv := by
  simp only [setupStep]
  split
  · exact h
  · rename_i db result hgrant
    cases grantBookingApproval_setup hgrant with
    | open' hresult hquiet =>
      have hsame : w.decided result = w := by
        unfold SetupWorld.decided
        split
        · exact absurd rfl (hresult _ _ _ _ _ _ _ _)
        · exact absurd rfl (hresult _ _ _ _ _ _ _ _)
        · rfl
      rw [hsame]
      exact SetupInv.quiet h hquiet
    | confirmed hanswers hresolves hlines hevents =>
      exact SetupInv.confirmed h (hok _ hanswers hresolves) hlines hevents
    | rejected hlines hevents => exact SetupInv.rejected h hlines hevents

theorem create_inv (h : w.Inv) {plan : AttachPlan} {key : String} {now : Nat}
    (hplaces : PlacesHints plan) (hok : ReleasesHinted w (.create input plan key now)) :
    (setupStep uuid valid ruleInTenant w (.create input plan key now)).Inv := by
  simp only [setupStep]
  split
  · exact h
  · rename_i store' result hcreate
    cases createBooking_setup hcreate with
    | cached hused hsame =>
      subst hsame
      have hnot : ¬(w.attachOperations.get? key).isNone = true := by simpa using hused
      rw [if_neg hnot]
      exact h
    | created hnew hlines hevents =>
      have hnone : (w.attachOperations.get? key).isNone = true := Option.isNone_iff_eq_none.mpr hnew
      rw [if_pos hnone]
      exact SetupInv.planned h hplaces hok ⟨hlines⟩ hevents

theorem setupStep_inv {call : SetupCall} (h : w.Inv) (hok : call.Placed ∧ ReleasesHinted w call) :
    (setupStep uuid valid ruleInTenant w call).Inv := by
  obtain ⟨hplaces, hok⟩ := hok
  cases call with
  | create input plan key now => exact create_inv h hplaces hok
  | approvals approvals => exact SetupInv.quiet h (.of_same rfl rfl)
  | grant call => exact grant_inv h hok
  | cancel call =>
    simp only [setupStep]
    split
    · exact h
    · rename_i hcancel
      exact SetupInv.quiet h (cancelBooking_quiet hcancel)
  | cancelLines call =>
    simp only [setupStep]
    split
    · exact h
    · rename_i hcancel
      exact SetupInv.quiet h (cancelLines_quiet hcancel)

/-- In every state of a run in which no JSON `null` is read as a hint, the setup work order of a line
was asked for once if it is due, and never else. -/
theorem setupLaw_run (series : Table Recurrence.SeriesRow) (calls : List SetupCall)
    (hplaced : ∀ call ∈ calls, call.Placed)
    (hok : Guarded (setupStep uuid valid ruleInTenant) ReleasesHinted (.start series) calls)
    (pre post : List SetupCall) (hpre : calls = pre ++ post) :
    SetupLaw (run (setupStep uuid valid ruleInTenant) (.start series) pre) := by
  have hguarded := hok.and_forall hplaced
  rw [hpre] at hguarded
  exact SetupInv.setupCount
    (hguarded.take.invariant (fun w call h hok => setupStep_inv h hok) (SetupInv.start series))

end

/-! ## Coffee with and without a setup -/

/-- Identifiers that differ for the rows of one request. -/
def coffeeUuid : PlanUuid → Nat
  | .booking _ => 1
  | .slot _ n => 100 + n
  | .order _ _ => 200
  | .oli _ _ _ => 300
  | .assetReservation _ _ _ => 400
  | .approval _ person => 500 + person
  | .approvalChain _ => 600

/-- Coffee needs a setup, and person 7 approves it. -/
def setupRule : ServiceRuleRow := { approverRule with requiresInternalSetup := true }

def coffeeBooking : BookingInput where
  bookingId := 1
  locationId := 10
  startAt := 600
  endAt := 660
  status := .confirmed
  slots := []

def coffeeCalls (rules : List ServiceRuleRow) : List SetupCall :=
  [.create coffeeBooking (coffeePlan rules) "key-1" 0,
    .grant { approvalId := 507, actorUserId := none, decision := "approved", comments := none,
             idempotencyKey := "k", now := 1 }]

abbrev coffeeRun (rules : List ServiceRuleRow) : SetupWorld :=
  run (setupStep coffeeUuid (fun _ _ => true) fun _ => true) (.start Table.empty) (coffeeCalls rules)

/-- The line that needs a setup waits for its approval, and then asks for it once. -/
theorem setupLaw_setupRule :
    SetupLaw (coffeeRun [setupRule]) ∧ (coffeeRun [setupRule]).setupCount 300 = 1 := by
  refine ⟨setupLaw_run Table.empty (coffeeCalls [setupRule]) ?_ ⟨?_, ?_, trivial⟩ _ []
    (List.append_nil _).symm, by decide +kernel⟩
  · intro call hcall
    simp only [coffeeCalls, List.mem_cons, List.not_mem_nil, or_false] at hcall
    rcases hcall with rfl | rfl
    · intro hnow
      cases hnow
    · trivial
  · intro hnow
    cases hnow
  · intro a _ _ l hl _ _ hnull
    have hobject : ∀ l ∈ (setupStep coffeeUuid (fun _ _ => true) (fun _ => true)
        (.start Table.empty) (.create coffeeBooking (coffeePlan [setupRule]) "key-1"
          0)).store.db.orderLineItems.rows, l.pendingSetupTriggerArgs ≠ some .null := by
      decide +kernel
    exact absurd hnull (hobject l hl)

/-- Coffee that needs no setup asks for one when it is booked. -/
theorem plainCoffee_asksForSetup :
    ¬ ∀ (uuid : PlanUuid → Nat) (valid : BookingInput → AttachPlan → Bool)
      (ruleInTenant : Nat → Bool) (series : Table Recurrence.SeriesRow) (calls : List SetupCall),
      (∀ call ∈ calls, call.Placed) →
        SetupLaw (run (setupStep uuid valid ruleInTenant) (.start series) calls) := by
  intro hlaw
  have hcount := hlaw coffeeUuid (fun _ _ => true) (fun _ => true) Table.empty
    [.create coffeeBooking (coffeePlan []) "key-1" 0] ?_ 300
  · revert hcount
    decide +kernel
  · intro call hcall
    obtain rfl := List.mem_singleton.mp hcall
    intro _
    decide +kernel

end Prequest.Booking
