import Prequest.Booking.EditFrame

/-!
# The writes of a series edit

A commit of a series edit checks and writes one occurrence after the other. The
checks of an occurrence read the rows of its booking only, so that they come out
as they would before the first write. What else can fail is a write: two slots
come to hold one room at one time, or a person is asked who is already asked.

* `Running.steps_iff`: when all the occurrences are written.
-/

namespace Prequest.Booking

open Prequest.Lib Prequest.Outbox Prequest.Approval Prequest.Command

/-! ## Checks -/

/-- The rows that a plan names are in the tenant, and those that hang on a booking are of this. -/
structure RefersTo (env : CommandEnv) (db : BookingDb) (bookingId : Nat) (plan : EditPlan) :
    Prop where
  entities : ∀ e ∈ plan.entities, env.entityInTenant e.1 e.2 = true
  workOrders : ∀ p ∈ plan.workOrderSlaPatches, env.entityInTenant .workOrder p.id = true ∧
    ∃ w ∈ db.workOrders.rows, w.bookingId = some bookingId ∧ w.id = p.id
  orders : ∀ p ∈ plan.orderPatches,
    ∃ o ∈ db.orders.rows, o.bookingId = some bookingId ∧ o.id = p.id
  assets : ∀ p ∈ plan.assetReservationPatches,
    ∃ r ∈ db.assetReservations.rows, r.bookingId = some bookingId ∧ r.id = p.id

/-- What is decided about an occurrence before it is written. -/
structure Checked (call : EditCall) (db : BookingDb) (b : BookingRow) (action : EditAction) :
    Prop where
  booking : db.bookings.get? call.bookingId = some b
  notCancelled : b.status ≠ .cancelled
  notStale : ¬(rulesMaxUpdatedAt call.env.rules b.locationId call.plan.booking.locationId).any
    (fun t => decide (call.plan.resolutionAt < t)) = true
  decided : decideApproval call.bookingId (approvalState db.approvals call.bookingId)
    call.plan.approval = .ok action
  approvers : action.inserts = true →
    ∃ config, approversToInsert call.env call.plan.approval = .ok config
  refers : RefersTo call.env db call.bookingId call.plan

variable {approvals approvals' : Table ApprovalRow}

section

variable {call : EditCall} {env : CommandEnv} {db db' : BookingDb} {b : BookingRow}
  {action : EditAction} {plan : EditPlan} {bookingId : Nat}

theorem get?_any {ρ : Type} [Keyed ρ Nat] {t : Table ρ} {k : Nat} {q : ρ → Bool} :
    (t.get? k).any q = true ↔ ∃ r ∈ t.rows, q r = true ∧ Keyed.key r = k := by
  rw [Option.any_eq_true]
  constructor
  · rintro ⟨r, hget, hq⟩
    obtain ⟨hmem, hkey⟩ := Table.get?_eq_some.mp hget
    exact ⟨r, hmem, hq, hkey⟩
  · rintro ⟨r, hmem, hq, hkey⟩
    exact ⟨r, Table.get?_eq_some.mpr ⟨hmem, hkey⟩, hq⟩

theorem referenceError_eq_none :
    referenceError env db bookingId plan = none ↔ RefersTo env db bookingId plan := by
  have hworkOrder : ∀ p : EditPlanWorkOrderSlaPatch, workOrderError env db bookingId p = none ↔
      env.entityInTenant .workOrder p.id = true ∧
        ∃ w ∈ db.workOrders.rows, w.bookingId = some bookingId ∧ w.id = p.id := by
    intro p
    have hany : ((db.workOrders.get? p.id).any fun w => w.bookingId == some bookingId) = true ↔
        ∃ w ∈ db.workOrders.rows, w.bookingId = some bookingId ∧ w.id = p.id := by
      rw [get?_any]
      simp only [beq_iff_eq]
      rfl
    rw [← hany]
    unfold workOrderError
    cases env.entityInTenant .workOrder p.id <;>
      cases ((db.workOrders.get? p.id).any fun w => w.bookingId == some bookingId) <;> simp
  have horder : ∀ p : EditPlanOrderPatch, orderError db bookingId p = none ↔
      ∃ o ∈ db.orders.rows, o.bookingId = some bookingId ∧ o.id = p.id := by
    intro p
    unfold orderError
    cases hget : db.orders.get? p.id with
    | none =>
      refine iff_of_false nofun ?_
      rintro ⟨o, ho, _, hid⟩
      exact Table.get?_eq_none.mp hget o ho hid
    | some o =>
      obtain ⟨ho, hid⟩ := Table.get?_eq_some.mp hget
      simp only
      by_cases hof : o.bookingId = some bookingId
      · exact iff_of_true (if_pos hof) ⟨o, ho, hof, hid⟩
      · rw [if_neg hof]
        refine iff_of_false nofun ?_
        rintro ⟨o', ho', hof', hid'⟩
        obtain rfl := db.orders.eq_of_key_eq ho ho' (hid.trans hid'.symm)
        exact hof hof'
  have hasset : ∀ p : EditPlanAssetReservationPatch, assetReservationError db bookingId p = none ↔
      ∃ r ∈ db.assetReservations.rows, r.bookingId = some bookingId ∧ r.id = p.id := by
    intro p
    have hany : ((db.assetReservations.get? p.id).any fun r => r.bookingId == some bookingId) =
        true ↔ ∃ r ∈ db.assetReservations.rows, r.bookingId = some bookingId ∧ r.id = p.id := by
      rw [get?_any]
      simp only [beq_iff_eq]
      rfl
    rw [← hany]
    unfold assetReservationError
    cases ((db.assetReservations.get? p.id).any fun r => r.bookingId == some bookingId) <;> simp
  have hentity : ∀ e : EntityKind × Nat, (if env.entityInTenant e.1 e.2 then (none : Option EditError)
      else some (.entityNotInTenant e.1 e.2)) = none ↔ env.entityInTenant e.1 e.2 = true := by
    intro e
    cases env.entityInTenant e.1 e.2 <;> simp
  unfold referenceError
  simp only [Option.orElse_eq_orElse, Option.orElse_eq_or, Option.or_eq_none_iff,
    List.findSome?_eq_none_iff, hworkOrder, horder, hasset, hentity]
  constructor
  · rintro ⟨hentities, hworkOrders, horders, hassets⟩
    exact ⟨hentities, hworkOrders, horders, hassets⟩
  · intro h
    exact ⟨h.entities, h.workOrders, h.orders, h.assets⟩

theorem checkEdit_eq_ok : checkEdit call db = .ok (b, action) ↔ Checked call db b action := by
  constructor
  · intro h
    unfold checkEdit at h
    split at h
    · cases h
    rename_i hbooking
    split at h
    · cases h
    rename_i hnotCancelled
    split at h
    · cases h
    rename_i hnotStale
    split at h
    · cases h
    rename_i hdecided
    split at h
    · cases h
    rename_i hconfig
    split at h
    · cases h
    rename_i hreference
    cases h
    refine ⟨hbooking, hnotCancelled, hnotStale, hdecided, ?_, referenceError_eq_none.mp hreference⟩
    intro hinserts
    rw [if_pos hinserts] at hconfig
    exact ⟨_, hconfig⟩
  · intro h
    unfold checkEdit
    simp only [h.booking]
    rw [if_neg h.notCancelled, if_neg h.notStale, h.decided]
    simp only [referenceError_eq_none.mpr h.refers]
    by_cases hinserts : action.inserts = true
    · obtain ⟨config, hconfig⟩ := h.approvers hinserts
      simp only [if_pos hinserts, hconfig]
    · simp only [if_neg hinserts]

theorem SameRowsOf.symm (h : SameRowsOf db db' bookingId) : SameRowsOf db' db bookingId :=
  ⟨h.booking.symm, h.slots.symm, h.approvals.symm, h.assets.symm, h.orders.symm, h.workOrders.symm⟩

theorem approvalState_of_filter (h : approvals'.rows.filter (aboutBooking bookingId) =
      approvals.rows.filter (aboutBooking bookingId)) :
    approvalState approvals' bookingId = approvalState approvals bookingId := by
  have hcount : ∀ status, countStatus approvals' bookingId status =
      countStatus approvals bookingId status := by
    intro status
    unfold countStatus
    rw [List.countP_eq_length_filter, List.countP_eq_length_filter]
    rw [filter_of_filter h fun r hr => (Bool.and_eq_true_iff.mp hr).1]
  unfold approvalState
  rw [hcount, hcount, hcount, hcount]

theorem exists_of_filter {ρ : Type} {rows rows' : List ρ} {owner : ρ → Option Nat} {id : ρ → Nat}
    {k : Nat} (h : (rows'.filter fun r => owner r == some bookingId) =
      rows.filter fun r => owner r == some bookingId)
    (hrow : ∃ r ∈ rows, owner r = some bookingId ∧ id r = k) :
    ∃ r ∈ rows', owner r = some bookingId ∧ id r = k := by
  obtain ⟨r, hr, howner, hid⟩ := hrow
  have hmem : r ∈ rows.filter fun r => owner r == some bookingId :=
    List.mem_filter.mpr ⟨hr, beq_iff_eq.mpr howner⟩
  rw [← h] at hmem
  exact ⟨r, (List.mem_filter.mp hmem).1, howner, hid⟩

theorem Checked.frame (h : Checked call db b action) (hsame : SameRowsOf db db' call.bookingId) :
    Checked call db' b action where
  booking := hsame.booking.trans h.booking
  notCancelled := h.notCancelled
  notStale := h.notStale
  decided := by
    rw [approvalState_of_filter hsame.approvals]
    exact h.decided
  approvers := h.approvers
  refers :=
    { entities := h.refers.entities
      workOrders := fun p hp =>
        ⟨(h.refers.workOrders p hp).1, exists_of_filter hsame.workOrders (h.refers.workOrders p hp).2⟩
      orders := fun p hp => exists_of_filter hsame.orders (h.refers.orders p hp)
      assets := fun p hp => exists_of_filter hsame.assets (h.refers.assets p hp) }

end

/-! ## Approvals -/

def PendingFor (approvals : Table ApprovalRow) (entityId personId : Nat) : Prop :=
  ∃ r ∈ approvals.rows, r.targetEntityId = entityId ∧ r.status = .pending ∧
    r.approverPersonId = some personId

structure FreeToAsk (approvals : Table ApprovalRow) (entityId : Nat) (persons : List Nat) : Prop where
  once : persons.Nodup
  unasked : ∀ p ∈ persons, ¬PendingFor approvals entityId p

def EditPlanApprovalChainConfig.persons (config : EditPlanApprovalChainConfig) : List Nat :=
  config.requiredApprovers.filterMap fun a => if a.type = .person then some a.id else none

def expiredFor (call : EditCall) (approvals : Table ApprovalRow) (action : EditAction) :
    Table ApprovalRow :=
  if action.expires then
    expireForEdit approvals (approvalState approvals call.bookingId) call.bookingId call.now
  else approvals

/-- The persons of the new chain can be asked, if there is one. -/
def AsksFreely (call : EditCall) (approvals : Table ApprovalRow) (action : EditAction) : Prop :=
  action.inserts = true → ∀ config, approversToInsert call.env call.plan.approval = .ok config →
    FreeToAsk (expiredFor call approvals action) call.bookingId config.persons

section

variable {call : EditCall} {approvals approvals' : Table ApprovalRow} {action : EditAction}

theorem alreadyAsked_iff {row : ApprovalRow} : alreadyAsked approvals row = true ↔
    ∃ p, row.approverPersonId = some p ∧ PendingFor approvals row.targetEntityId p := by
  unfold alreadyAsked PendingFor
  cases row.approverPersonId with
  | none => simp
  | some p =>
    simp only [Option.isSome_some, Bool.true_and, List.any_eq_true, Bool.and_eq_true, beq_iff_eq,
      Option.some.injEq, exists_eq_left']
    constructor
    · rintro ⟨r, hr, ⟨hpending, htarget⟩, hperson⟩
      exact ⟨r, hr, htarget, hpending, hperson⟩
    · rintro ⟨r, hr, htarget, hpending, hperson⟩
      exact ⟨r, hr, ⟨hpending, htarget⟩, hperson⟩

theorem insertApprovers_ok_iff {entityId : Nat} {rows : List ApprovalRow}
    (hpending : ∀ r ∈ rows, r.status = .pending ∧ r.targetEntityId = entityId)
    (hids : (rows.map ApprovalRow.id).Nodup) (hfresh : ∀ r ∈ rows, approvals.get? r.id = none) :
    (∃ approvals', insertApprovers approvals rows = .ok approvals') ↔
      FreeToAsk approvals entityId (rows.filterMap ApprovalRow.approverPersonId) := by
  induction rows generalizing approvals with
  | nil => exact iff_of_true ⟨approvals, rfl⟩ ⟨List.nodup_nil, fun p hp => by cases hp⟩
  | cons row rows ih =>
    obtain ⟨hstatus, htarget⟩ := hpending row List.mem_cons_self
    obtain ⟨hnotIn, hids⟩ := List.nodup_cons.mp hids
    obtain ⟨next, hinsert, hrows⟩ :=
      Table.insert?_of_fresh (hfresh row List.mem_cons_self)
    have hnext : ∀ r ∈ rows, next.get? r.id = none := by
      intro r hr
      refine Table.get?_eq_none.mpr ?_
      intro s hs hid
      rw [hrows, List.mem_append, List.mem_singleton] at hs
      rcases hs with hs | rfl
      · exact Table.get?_eq_none.mp (hfresh r (List.mem_cons_of_mem _ hr)) s hs hid
      · exact hnotIn (List.mem_map.mpr ⟨r, hr, hid.symm⟩)
    have hasked : ∀ p, PendingFor next entityId p ↔
        PendingFor approvals entityId p ∨ row.approverPersonId = some p := by
      intro p
      unfold PendingFor
      rw [hrows]
      simp only [List.mem_append, List.mem_singleton, or_and_right, exists_or, exists_eq_left,
        hstatus, htarget, true_and]
    have ih := ih (fun r hr => hpending r (List.mem_cons_of_mem _ hr)) hids hnext
    simp only [insertApprovers, List.foldlM_cons] at ih ⊢
    by_cases halready : alreadyAsked approvals row = true
    · refine iff_of_false ?_ ?_
      · rintro ⟨approvals', hinserted⟩
        rw [if_pos halready] at hinserted
        cases hinserted
      · intro hfree
        obtain ⟨p, hperson, hasked⟩ := alreadyAsked_iff.mp halready
        rw [htarget] at hasked
        refine hfree.unasked p ?_ hasked
        rw [List.filterMap_cons_some hperson]
        exact List.mem_cons_self
    · rw [if_neg halready, hinsert]
      refine ih.trans ?_
      cases hperson : row.approverPersonId with
      | none =>
        rw [List.filterMap_cons_none hperson]
        constructor
        · intro hfree
          exact ⟨hfree.once, fun p hp h => hfree.unasked p hp ((hasked p).mpr (.inl h))⟩
        · intro hfree
          refine ⟨hfree.once, fun p hp h => ?_⟩
          rcases (hasked p).mp h with h | h
          · exact hfree.unasked p hp h
          · rw [hperson] at h
            cases h
      | some person =>
        have hnone : ¬PendingFor approvals entityId person := by
          intro h
          rw [← htarget] at h
          exact halready (alreadyAsked_iff.mpr ⟨person, hperson, h⟩)
        rw [List.filterMap_cons_some hperson]
        constructor
        · intro hfree
          refine ⟨List.nodup_cons.mpr ⟨?_, hfree.once⟩, fun p hp h => ?_⟩
          · intro hin
            exact hfree.unasked person hin ((hasked person).mpr (.inr hperson))
          · rcases List.mem_cons.mp hp with rfl | hp
            · exact hnone h
            · exact hfree.unasked p hp ((hasked p).mpr (.inl h))
        · intro hfree
          obtain ⟨hfirst, honce⟩ := List.nodup_cons.mp hfree.once
          refine ⟨honce, fun p hp h => ?_⟩
          rcases (hasked p).mp h with h | h
          · exact hfree.unasked p (List.mem_cons_of_mem _ hp) h
          · rw [hperson] at h
            cases h
            exact hfirst hp

theorem newApprovalRows_persons (call : EditCall) (config : EditPlanApprovalChainConfig) :
    (newApprovalRows call config).filterMap ApprovalRow.approverPersonId = config.persons := by
  unfold newApprovalRows EditPlanApprovalChainConfig.persons
  rw [List.filterMap_map, show (ApprovalRow.approverPersonId ∘ fun p : Approver × Nat =>
    newApprovalRow call config.threshold p.1 (call.newApprovalId p.2)) =
      (fun a : Approver => if a.type = .person then some a.id else none) ∘ Prod.fst from rfl,
    ← List.filterMap_map, List.zipIdx_map_fst]

structure DrawsIds (call : EditCall) (approvals : Table ApprovalRow) : Prop where
  distinct : ∀ place place', call.newApprovalId place = call.newApprovalId place' → place = place'
  unused : ∀ place, approvals.get? (call.newApprovalId place) = none

theorem expiredFor_rows (call : EditCall) (approvals : Table ApprovalRow) (action : EditAction) :
    (expiredFor call approvals action).rows =
      approvals.rows.map (rowAfterEdit call approvals action) := by
  unfold expiredFor rowAfterEdit
  cases action.expires with
  | true => rfl
  | false => exact (List.map_id _).symm

theorem rowAfterEdit_kept (call : EditCall) (approvals : Table ApprovalRow) (action : EditAction)
    (r : ApprovalRow) : (rowAfterEdit call approvals action r).id = r.id ∧
      (rowAfterEdit call approvals action r).targetEntityId = r.targetEntityId := by
  unfold rowAfterEdit Table.updated
  split
  · split <;> exact ⟨rfl, rfl⟩
  · exact ⟨rfl, rfl⟩

theorem approvalsAfterEdit_of_error (hinserts : action.inserts = true) {e : EditError}
    (herror : approversToInsert call.env call.plan.approval = .error e) :
    approvalsAfterEdit call approvals action = .error e := by
  simp only [approvalsAfterEdit, hinserts, herror, if_true]

theorem approvalsAfterEdit_of_inserts (hinserts : action.inserts = true)
    {config : EditPlanApprovalChainConfig}
    (hconfig : approversToInsert call.env call.plan.approval = .ok config) :
    approvalsAfterEdit call approvals action =
      insertApprovers (expiredFor call approvals action) (newApprovalRows call config) := by
  simp only [approvalsAfterEdit, hinserts, hconfig, if_true]
  rfl

theorem approvalsAfterEdit_of_keeps (hinserts : ¬action.inserts = true) :
    approvalsAfterEdit call approvals action = .ok (expiredFor call approvals action) := by
  simp only [approvalsAfterEdit, hinserts]
  rfl

theorem approvalsAfterEdit_ok_iff (hids : DrawsIds call approvals)
    (hconfig : action.inserts = true →
      ∃ config, approversToInsert call.env call.plan.approval = .ok config) :
    (∃ approvals', approvalsAfterEdit call approvals action = .ok approvals') ↔
      AsksFreely call approvals action := by
  by_cases hinserts : action.inserts = true
  · obtain ⟨config, hconfig⟩ := hconfig hinserts
    have hunused : ∀ place,
        (expiredFor call approvals action).get? (call.newApprovalId place) = none := by
      intro place
      refine Table.get?_eq_none.mpr ?_
      intro r hr hid
      rw [expiredFor_rows] at hr
      obtain ⟨r₀, hr₀, rfl⟩ := List.mem_map.mp hr
      exact Table.get?_eq_none.mp (hids.unused place) r₀ hr₀
        ((rowAfterEdit_kept call approvals action r₀).1.symm.trans hid)
    have hpending : ∀ r ∈ newApprovalRows call config,
        r.status = .pending ∧ r.targetEntityId = call.bookingId := by
      intro r hr
      obtain ⟨p, _, rfl⟩ := List.mem_map.mp hr
      exact ⟨rfl, rfl⟩
    have hdrawn : (newApprovalRows call config).map ApprovalRow.id =
        (List.range' 0 config.requiredApprovers.length).map call.newApprovalId := by
      unfold newApprovalRows
      rw [List.map_map, show (ApprovalRow.id ∘ fun p : Approver × Nat =>
        newApprovalRow call config.threshold p.1 (call.newApprovalId p.2)) =
          call.newApprovalId ∘ Prod.snd from rfl, ← List.map_map, List.zipIdx_map_snd]
    have hnodup : ((newApprovalRows call config).map ApprovalRow.id).Nodup := by
      rw [hdrawn]
      exact (List.nodup_range' _).map fun place place' => hids.distinct place place'
    have hfresh : ∀ r ∈ newApprovalRows call config,
        (expiredFor call approvals action).get? r.id = none := by
      intro r hr
      obtain ⟨p, _, rfl⟩ := List.mem_map.mp hr
      exact hunused p.2
    rw [approvalsAfterEdit_of_inserts hinserts hconfig]
    refine (insertApprovers_ok_iff hpending hnodup hfresh).trans ?_
    rw [newApprovalRows_persons]
    constructor
    · intro hfree _ config' hconfig'
      rw [hconfig] at hconfig'
      cases hconfig'
      exact hfree
    · intro hasks
      exact hasks hinserts config hconfig
  · rw [approvalsAfterEdit_of_keeps hinserts]
    exact iff_of_true ⟨_, rfl⟩ fun h => absurd h hinserts

theorem AsksFreely.frame (h : AsksFreely call approvals action)
    (hsame : (approvals'.rows.filter fun r => r.targetEntityId == call.bookingId) =
      approvals.rows.filter fun r => r.targetEntityId == call.bookingId) :
    AsksFreely call approvals' action := by
  have hstate : approvalState approvals' call.bookingId = approvalState approvals call.bookingId :=
    approvalState_of_filter (filter_of_filter hsame fun r hr => (Bool.and_eq_true_iff.mp hr).2)
  have hrow : rowAfterEdit call approvals' action = rowAfterEdit call approvals action := by
    funext r
    unfold rowAfterEdit
    rw [hstate]
  intro hinserts config hconfig
  have hfree := h hinserts config hconfig
  refine ⟨hfree.once, fun p hp hasked => hfree.unasked p hp ?_⟩
  obtain ⟨r', hr', htarget, hpending, hperson⟩ := hasked
  rw [expiredFor_rows, hrow] at hr'
  obtain ⟨r, hr, rfl⟩ := List.mem_map.mp hr'
  have hof : r.targetEntityId = call.bookingId :=
    (rowAfterEdit_kept call approvals action r).2.symm.trans htarget
  have hmem : r ∈ approvals'.rows.filter fun r => r.targetEntityId == call.bookingId :=
    List.mem_filter.mpr ⟨hr, beq_iff_eq.mpr hof⟩
  rw [hsame] at hmem
  refine ⟨rowAfterEdit call approvals action r, ?_, htarget, hpending, hperson⟩
  rw [expiredFor_rows]
  exact List.mem_map_of_mem (List.mem_filter.mp hmem).1

theorem approvalsAfterEdit_filter_target {id : Nat}
    (h : approvalsAfterEdit call approvals action = .ok approvals') (hne : id ≠ call.bookingId) :
    (approvals'.rows.filter fun r => r.targetEntityId == id) =
      approvals.rows.filter fun r => r.targetEntityId == id := by
  obtain ⟨new, hrows, hnew, _⟩ := approvalsAfterEdit_rows h
  have hnone : (new.filter fun r => r.targetEntityId == id) = [] := by
    refine List.filter_eq_nil_iff.mpr ?_
    intro r hr hid
    have habout := (hnew r hr).about
    simp only [aboutBooking, Bool.and_eq_true, beq_iff_eq] at habout hid
    exact hne (hid.symm.trans habout.2)
  have htarget : ((fun r : ApprovalRow => r.targetEntityId == id) ∘
      rowAfterEdit call approvals action) = fun r => r.targetEntityId == id := by
    funext r
    rw [Function.comp_apply, (rowAfterEdit_kept call approvals action r).2]
  rw [hrows, List.filter_append, hnone, List.append_nil, List.filter_map, htarget]
  refine (List.map_congr_left fun r hr => ?_).trans (List.map_id _)
  have hid : r.targetEntityId = id := by simpa using (List.mem_filter.mp hr).2
  unfold rowAfterEdit
  split
  · refine Table.updated_of_false ?_
    simp [expiredByEdit, aboutBooking, hid, hne]
  · rfl

end

/-! ## Events -/

def BookingEventKey.commandKey? : BookingEventKey → Option String
  | .bookingCreated _ key => some key
  | .bookingLocationChanged _ key => some key
  | .bookingCostChanged _ key => some key
  | .bookingApprovalRequired _ key => some key
  | .slaTimerRepointedRequired _ key => some key
  | .bundleServicesCancelled _ key => some key
  | _ => none

def EventOf (db : BookingDb) (bookingId : Nat) : BookingEventKey → Prop
  | .bookingLocationChanged id _ => id = bookingId
  | .bookingCostChanged id _ => id = bookingId
  | .bookingApprovalRequired id _ => id = bookingId
  | .slaTimerRepointedRequired id _ =>
      ∃ w ∈ db.workOrders.rows, w.bookingId = some bookingId ∧ w.id = id
  | _ => False

section

variable {call : EditCall} {db : BookingDb} {b : BookingRow} {action : EditAction}

theorem EventOf.unique {i j : Nat} {key : BookingEventKey} (h : EventOf db i key)
    (h' : EventOf db j key) : i = j := by
  cases key with
  | bookingLocationChanged id _ => exact h.symm.trans h'
  | bookingCostChanged id _ => exact h.symm.trans h'
  | bookingApprovalRequired id _ => exact h.symm.trans h'
  | slaTimerRepointedRequired id _ =>
    obtain ⟨w, hw, hof, hid⟩ := h
    obtain ⟨w', hw', hof', hid'⟩ := h'
    obtain rfl := db.workOrders.eq_of_key_eq hw hw' (hid.trans hid'.symm)
    rw [hof] at hof'
    exact Option.some.inj hof'
  | _ => exact h.elim

theorem editEvents_of (hrefers : RefersTo call.env db call.bookingId call.plan)
    (hb : b.id = call.bookingId) {e : FollowUp × Event BookingEventKey BookingEvent}
    (he : e ∈ editEvents call b action) : EventOf db call.bookingId e.2.idempotencyKey ∧
      e.2.idempotencyKey.commandKey? = some call.idempotencyKey := by
  unfold editEvents at he
  simp only [List.mem_append] at he
  rcases he with ((he | he) | he) | he
  · split at he
    · cases he
    · rw [List.mem_singleton] at he
      subst he
      exact ⟨hb, rfl⟩
  · split at he
    · cases he
    · rw [List.mem_singleton] at he
      subst he
      exact ⟨hb, rfl⟩
  · split at he
    · rw [List.mem_singleton] at he
      subst he
      exact ⟨hb, rfl⟩
    · cases he
  · obtain ⟨p, hp, rfl⟩ := List.mem_map.mp he
    exact ⟨(hrefers.workOrders p (List.mem_filter.mp hp).1).2, rfl⟩

theorem editEvents_nodup
    (hworkOrders : (call.plan.workOrderSlaPatches.map EditPlanWorkOrderSlaPatch.id).Nodup) :
    (((editEvents call b action).map Prod.snd).map Event.idempotencyKey).Nodup := by
  have htimers : ((call.plan.workOrderSlaPatches.filter (·.needsRepoint)).map fun w =>
      BookingEventKey.slaTimerRepointedRequired w.id call.idempotencyKey).Nodup := by
    have hids : ((call.plan.workOrderSlaPatches.filter (·.needsRepoint)).map
        EditPlanWorkOrderSlaPatch.id).Nodup :=
      hworkOrders.sublist (List.filter_sublist.map _)
    rw [show (fun w : EditPlanWorkOrderSlaPatch =>
      BookingEventKey.slaTimerRepointedRequired w.id call.idempotencyKey) =
        (fun id => BookingEventKey.slaTimerRepointedRequired id call.idempotencyKey) ∘
          EditPlanWorkOrderSlaPatch.id from rfl, ← List.map_map]
    refine hids.map fun id id' heq => ?_
    injection heq
  unfold editEvents
  simp only [List.map_append, List.map_map]
  split <;> split <;> split <;> simpa [Function.comp_def] using htimers

end

/-! ## One occurrence -/

def moveSlots (plans : List (Nat × EditPlan)) (slots : Table SlotRow) : Table SlotRow :=
  plans.foldl (fun slots p => p.2.slotPatches.foldl (fun slots patch =>
    slots.update (patchesSlot p.1 patch) (applySlotPatch patch)) slots) slots

/-- The ids that a commit draws are new, and its key is on no event. -/
structure DrawsFresh (call : ScopeCall) (db : BookingDb) : Prop where
  unused : ∀ id place, db.approvals.get? (call.newApprovalId id place) = none
  distinct : ∀ id place id' place', call.newApprovalId id place = call.newApprovalId id' place' →
    id = id' ∧ place = place'
  silent : ∀ e ∈ db.outbox.rows, e.idempotencyKey.commandKey? ≠ some call.idempotencyKey

/-- The occurrence passes its checks and, after those that come before it, can be written. -/
def CanWrite (call : ScopeCall) (db : BookingDb) (done : List (Nat × EditPlan))
    (p : Nat × EditPlan) : Prop :=
  ∃ b action, Checked (call.edit p) db b action ∧
    hasOverlap (moveSlots (done ++ [p]) db.slots) = false ∧
      AsksFreely (call.edit p) db.approvals action

/-- The tables when some occurrences are written. -/
structure Running (call : ScopeCall) (db₀ : BookingDb) (done : List (Nat × EditPlan))
    (db : BookingDb) : Prop where
  rows : ∀ id, id ∉ done.map Prod.fst → SameRowsOf db₀ db id
  asked : ∀ id, id ∉ done.map Prod.fst →
    (db.approvals.rows.filter fun r => r.targetEntityId == id) =
      db₀.approvals.rows.filter fun r => r.targetEntityId == id
  slots : db.slots = moveSlots done db₀.slots
  drawn : ∀ r ∈ db.approvals.rows, (∃ r₀ ∈ db₀.approvals.rows, r₀.id = r.id) ∨
    ∃ id ∈ done.map Prod.fst, ∃ place, call.newApprovalId id place = r.id
  emitted : ∀ e ∈ db.outbox.rows, e.idempotencyKey.commandKey? = some call.idempotencyKey →
    ∃ id ∈ done.map Prod.fst, EventOf db₀ id e.idempotencyKey

/-- A plan has one slot to move, and names each work order once. -/
structure OneSlot (plan : EditPlan) : Prop where
  slots : ∃ q, plan.slotPatches = [q]
  workOrders : (plan.workOrderSlaPatches.map EditPlanWorkOrderSlaPatch.id).Nodup

section

variable {call : ScopeCall} {db₀ db db' : BookingDb} {done plans : List (Nat × EditPlan)}
  {p : Nat × EditPlan} {q : EditPlanSlotPatch}

theorem workOrderPatches_ids (m : SlotMove) (rows : List WorkOrderRow) :
    (rows.filterMap m.workOrderPatch).map EditPlanWorkOrderSlaPatch.id =
      (rows.filter fun w => w.plannedStartAt.isSome).map WorkOrderRow.id := by
  induction rows with
  | nil => rfl
  | cons w rows ih =>
    cases hplanned : w.plannedStartAt with
    | none =>
      rw [List.filterMap_cons_none (by rw [SlotMove.workOrderPatch, hplanned]; rfl),
        List.filter_cons_of_neg (by simp [hplanned]), ih]
    | some plannedStartAt =>
      have hpatch : m.workOrderPatch w = some ⟨w.id, plannedStartAt + m.startDelta, none, true,
          w.slaId⟩ := by
        rw [SlotMove.workOrderPatch, hplanned]
        rfl
      rw [List.filterMap_cons_some hpatch, List.filter_cons_of_pos (by simp [hplanned]),
        List.map_cons, List.map_cons, ih]

theorem Planned.oneSlot {env : EditPlanEnv} {patch : ScopePatch} {resolutionAt : Int}
    {booking : BookingRow} {slot : SlotRow} (h : Planned env db patch resolutionAt p booking slot) :
    OneSlot p.2 := by
  rw [h.slotPlan_eq]
  refine ⟨⟨_, rfl⟩, ?_⟩
  show ((List.insertionSort (·.id ≤ ·.id) ((db.workOrders.rows.filter
    (liveWorkOrder booking.id)).filterMap (patch.slotPatch.move slot).workOrderPatch)).map
      EditPlanWorkOrderSlaPatch.id).Nodup
  refine ((List.perm_insertionSort _ _).map _).nodup_iff.mpr ?_
  rw [workOrderPatches_ids]
  exact db.workOrders.nodup.sublist ((List.filter_sublist.trans List.filter_sublist).map _)

theorem moveSlots_concat (done : List (Nat × EditPlan)) (slots : Table SlotRow)
    (hq : p.2.slotPatches = [q]) : moveSlots (done ++ [p]) slots =
      (moveSlots done slots).update (patchesSlot p.1 q) (applySlotPatch q) := by
  unfold moveSlots
  rw [List.foldl_append, List.foldl_cons, List.foldl_nil, hq, List.foldl_cons, List.foldl_nil]

theorem applySlotPatches_one {slots slots' : Table SlotRow} {id : Nat} :
    applySlotPatches slots id [q] = .ok slots' ↔
      hasOverlap (slots.update (patchesSlot id q) (applySlotPatch q)) = false ∧
        slots' = slots.update (patchesSlot id q) (applySlotPatch q) := by
  simp only [applySlotPatches, List.foldlM_cons, List.foldlM_nil]
  cases hasOverlap (slots.update (patchesSlot id q) (applySlotPatch q)) with
  | true =>
    constructor
    · intro h
      cases h
    · intro h
      cases h.1
  | false =>
    constructor
    · intro h
      exact ⟨rfl, (Except.ok.inj h).symm⟩
    · rintro ⟨_, rfl⟩
      rfl

theorem approvalsAfterEdit_ids {call : EditCall} {action : EditAction}
    (h : approvalsAfterEdit call approvals action = .ok approvals') :
    ∀ r ∈ approvals'.rows, (∃ r₀ ∈ approvals.rows, r₀.id = r.id) ∨
      ∃ place, call.newApprovalId place = r.id := by
  have hold : ∀ r ∈ (expiredFor call approvals action).rows, ∃ r₀ ∈ approvals.rows, r₀.id = r.id := by
    intro r hr
    rw [expiredFor_rows] at hr
    obtain ⟨r₀, hr₀, rfl⟩ := List.mem_map.mp hr
    exact ⟨r₀, hr₀, (rowAfterEdit_kept call approvals action r₀).1.symm⟩
  intro r hr
  by_cases hinserts : action.inserts = true
  · cases hconfig : approversToInsert call.env call.plan.approval with
    | error e =>
      rw [approvalsAfterEdit_of_error hinserts hconfig] at h
      cases h
    | ok config =>
      rw [approvalsAfterEdit_of_inserts hinserts hconfig] at h
      rw [insertApprovers_rows h, List.mem_append] at hr
      rcases hr with hr | hr
      · exact .inl (hold r hr)
      · obtain ⟨a, _, rfl⟩ := List.mem_map.mp hr
        exact .inr ⟨a.2, rfl⟩
  · rw [approvalsAfterEdit_of_keeps hinserts] at h
    cases h
    exact .inl (hold r hr)

theorem commitOccurrence_of {b : BookingRow} {action : EditAction} {slots : Table SlotRow}
    {approvals : Table ApprovalRow} {outbox : BookingOutbox}
    (hcheck : Checked (call.edit p) db b action)
    (hslots : applySlotPatches db.slots b.id p.2.slotPatches = .ok slots)
    (happrovals : approvalsAfterEdit (call.edit p) db.approvals action = .ok approvals)
    (houtbox : emitAll db.outbox ((editEvents (call.edit p) b action).map Prod.snd) = .ok outbox) :
    ∃ db' out, commitOccurrence call db p = .ok (db', out) := by
  unfold commitOccurrence
  simp only [checkEdit_eq_ok.mpr hcheck]
  unfold applyEdit
  simp only [show (call.edit p).plan = p.2 from rfl, hslots, happrovals, houtbox]
  exact ⟨_, _, rfl⟩

theorem Running.start (h : DrawsFresh call db) : Running call db [] db where
  rows := fun id _ => .refl db id
  asked := fun _ _ => rfl
  slots := rfl
  drawn := fun r hr => .inl ⟨r, hr, rfl⟩
  emitted := fun e he hkey => absurd hkey (h.silent e he)

theorem Running.drawsIds (h : Running call db₀ done db) (hfresh : DrawsFresh call db₀)
    (hnew : p.1 ∉ done.map Prod.fst) : DrawsIds (call.edit p) db.approvals where
  distinct := fun place place' heq => (hfresh.distinct p.1 place p.1 place' heq).2
  unused := by
    intro place
    refine Table.get?_eq_none.mpr ?_
    intro r hr hid
    rcases h.drawn r hr with ⟨r₀, hr₀, hsame⟩ | ⟨id, hdone, place', hdrawn⟩
    · exact Table.get?_eq_none.mp (hfresh.unused p.1 place) r₀ hr₀ (hsame.trans hid)
    · obtain ⟨rfl, _⟩ := hfresh.distinct id place' p.1 place (hdrawn.trans hid)
      exact hnew hdone

theorem Running.commit_iff (h : Running call db₀ done db) (hfresh : DrawsFresh call db₀)
    (hnew : p.1 ∉ done.map Prod.fst) (hone : OneSlot p.2) :
    (∃ db' out, commitOccurrence call db p = .ok (db', out)) ↔ CanWrite call db₀ done p := by
  obtain ⟨q, hq⟩ := hone.slots
  have hsame := h.rows p.1 hnew
  constructor
  · rintro ⟨db', out, hcommit⟩
    obtain ⟨b, action, hcheck, happlied⟩ := commitOccurrence_ok hcommit
    have hchecked := checkEdit_eq_ok.mp hcheck
    have hb : b.id = p.1 := (Table.get?_eq_some.mp hchecked.booking).2
    have hslots := happlied.slots
    rw [hb, show (call.edit p).plan.slotPatches = [q] from hq, applySlotPatches_one, h.slots,
      ← moveSlots_concat done db₀.slots hq] at hslots
    have hasks := (approvalsAfterEdit_ok_iff (h.drawsIds hfresh hnew) hchecked.approvers).mp
      ⟨_, happlied.approvals⟩
    exact ⟨b, action, hchecked.frame hsame.symm, hslots.1, hasks.frame (h.asked p.1 hnew).symm⟩
  · rintro ⟨b, action, hchecked, hoverlap, hasks⟩
    have hb : b.id = p.1 := (Table.get?_eq_some.mp hchecked.booking).2
    obtain ⟨approvals, happrovals⟩ := (approvalsAfterEdit_ok_iff (h.drawsIds hfresh hnew)
      hchecked.approvers).mpr (hasks.frame (h.asked p.1 hnew))
    have houtbox : ∃ outbox, emitAll db.outbox
        ((editEvents (call.edit p) b action).map Prod.snd) = .ok outbox := by
      refine emitAll_of_fresh (editEvents_nodup hone.workOrders) ?_
      intro e he
      obtain ⟨event, hevent, rfl⟩ := List.mem_map.mp he
      obtain ⟨hof, hkey⟩ := editEvents_of hchecked.refers hb hevent
      refine Table.get?_eq_none.mpr ?_
      intro e' he' hsameKey
      have hkey' : e'.idempotencyKey = event.2.idempotencyKey := hsameKey
      rw [← hkey'] at hof hkey
      obtain ⟨id, hdone, hofId⟩ := h.emitted e' he' hkey
      obtain rfl := hofId.unique hof
      exact hnew hdone
    obtain ⟨outbox, houtbox⟩ := houtbox
    have hslots : applySlotPatches db.slots b.id p.2.slotPatches =
        .ok (moveSlots (done ++ [p]) db₀.slots) := by
      rw [hb, hq, applySlotPatches_one, h.slots, ← moveSlots_concat done db₀.slots hq]
      exact ⟨hoverlap, rfl⟩
    exact commitOccurrence_of (hchecked.frame hsame) hslots happrovals houtbox

theorem Running.step {out : OccurrenceEdit} (h : Running call db₀ done db)
    (hnew : p.1 ∉ done.map Prod.fst) (hone : OneSlot p.2)
    (hcommit : commitOccurrence call db p = .ok (db', out)) :
    Running call db₀ (done ++ [p]) db' := by
  obtain ⟨q, hq⟩ := hone.slots
  obtain ⟨b, action, hcheck, happlied⟩ := commitOccurrence_ok hcommit
  have hchecked := (checkEdit_eq_ok.mp hcheck).frame (h.rows p.1 hnew).symm
  have hb : b.id = p.1 := (Table.get?_eq_some.mp hchecked.booking).2
  have hin : ∀ id, id ∈ (done ++ [p]).map Prod.fst ↔ id ∈ done.map Prod.fst ∨ id = p.1 := by
    intro id
    rw [List.map_append, List.mem_append, List.map_singleton, List.mem_singleton]
  refine ⟨?_, ?_, ?_, ?_, ?_⟩
  · intro id hid
    rw [hin, not_or] at hid
    exact (h.rows id hid.1).trans (happlied.sameRows hb hid.2)
  · intro id hid
    rw [hin, not_or] at hid
    exact (approvalsAfterEdit_filter_target happlied.approvals hid.2).trans (h.asked id hid.1)
  · have hslots := happlied.slots
    rw [hb, show (call.edit p).plan.slotPatches = [q] from hq, applySlotPatches_one, h.slots,
      ← moveSlots_concat done db₀.slots hq] at hslots
    exact hslots.2
  · intro r hr
    rcases approvalsAfterEdit_ids happlied.approvals r hr with ⟨r₁, hr₁, hid⟩ | ⟨place, hdrawn⟩
    · rcases h.drawn r₁ hr₁ with ⟨r₀, hr₀, hsame⟩ | ⟨id, hdone, place, hdrawn⟩
      · exact .inl ⟨r₀, hr₀, hsame.trans hid⟩
      · exact .inr ⟨id, (hin id).mpr (.inl hdone), place, hdrawn.trans hid⟩
    · exact .inr ⟨p.1, (hin p.1).mpr (.inr rfl), place, hdrawn⟩
  · intro e he hkey
    rcases (mem_of_emitAll happlied.outbox e).mp he with he | he
    · obtain ⟨id, hdone, hof⟩ := h.emitted e he hkey
      exact ⟨id, (hin id).mpr (.inl hdone), hof⟩
    · obtain ⟨event, hevent, rfl⟩ := List.mem_map.mp he
      exact ⟨p.1, (hin p.1).mpr (.inr rfl), (editEvents_of hchecked.refers hb hevent).1⟩

theorem Running.steps_iff (h : Running call db₀ done db) (hfresh : DrawsFresh call db₀)
    (hnodup : ((done ++ plans).map Prod.fst).Nodup) (hone : ∀ p ∈ plans, OneSlot p.2) :
    (∃ db' outs, Steps (commitOccurrence call) db plans db' outs) ↔
      ∀ pre p post, plans = pre ++ p :: post → CanWrite call db₀ (done ++ pre) p := by
  induction plans generalizing done db with
  | nil =>
    refine iff_of_true ⟨db, [], .nil db⟩ ?_
    intro pre p post hsplit
    cases pre <;> cases hsplit
  | cons p plans ih =>
    have hnew : p.1 ∉ done.map Prod.fst := by
      intro hdone
      rw [List.map_append, List.nodup_append] at hnodup
      exact hnodup.2.2 p.1 hdone p.1 List.mem_cons_self rfl
    have hcommit := h.commit_iff hfresh hnew (hone p List.mem_cons_self)
    have hnodup' : ((done ++ [p] ++ plans).map Prod.fst).Nodup := by
      rw [List.append_assoc]
      exact hnodup
    constructor
    · rintro ⟨db', outs, hsteps⟩
      cases hsteps with
      | @cons _ next _ _ _ out outs hhead htail =>
        have hnext := h.step hnew (hone p List.mem_cons_self) hhead
        have hrest := (ih hnext hnodup' fun q hq => hone q (List.mem_cons_of_mem p hq)).mp
          ⟨db', outs, htail⟩
        intro pre q post hsplit
        cases pre with
        | nil =>
          obtain ⟨rfl, rfl⟩ := List.cons.inj hsplit
          rw [List.append_nil]
          exact hcommit.mp ⟨next, out, hhead⟩
        | cons p' pre =>
          obtain ⟨rfl, hsplit'⟩ := List.cons.inj hsplit
          have hq := hrest pre q post hsplit'
          rwa [List.append_assoc] at hq
    · intro hall
      have hfirst := hall [] p plans rfl
      rw [List.append_nil] at hfirst
      obtain ⟨next, out, hhead⟩ := hcommit.mpr hfirst
      have hnext := h.step hnew (hone p List.mem_cons_self) hhead
      have hrest : ∀ pre q post, plans = pre ++ q :: post →
          CanWrite call db₀ (done ++ [p] ++ pre) q := by
        intro pre q post hsplit
        rw [List.append_assoc]
        exact hall (p :: pre) q post (by rw [hsplit]; rfl)
      obtain ⟨db', outs, htail⟩ := (ih hnext hnodup' fun q hq =>
        hone q (List.mem_cons_of_mem p hq)).mpr hrest
      exact ⟨db', out :: outs, .cons hhead htail⟩

end

end Prequest.Booking
