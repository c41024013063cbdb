import Mathlib.Data.List.Dedup
import Mathlib.Data.Nat.Pairing
import Prequest.Booking.CommitWrites
import Prequest.Booking.EditReplay

/-!
# What the preview of a series edit says

A dry run of `editScope` plans and checks the occurrences and reports each with
`would_succeed: true`; the commit plans and checks them again and writes them.
The dry run picks the following occurrences by the start of the pivot's slot, the
split of the commit by the start of the pivot's booking. The dry run moves no
slot, so that it does not meet `booking_slots_no_overlap`, and asks nobody. It claims
the basis of its resolution, which is a write when nobody did before.

* `previewPredicts_iff`: when the preview says what the commit does.
* `takenRoom_previewed`: a room that is taken.
-/

namespace Prequest.Booking

open Prequest.Lib Prequest.Approval Prequest.Command Prequest.Recurrence

/-! ## The occurrences -/

section

variable (r : ScopeRequest)

/-- The occurrences that an edit is about: all of the series, or those from a start on that is read
of the pivot and its slot. -/
def ScopeRequest.rowsFrom (db : BookingDb)
    (startAt : SlotRow → BookingRow → Int) : List Nat :=
  if r.timeShift then []
  else match primarySlot db r.bookingId, db.bookings.get? r.bookingId with
    | some slot, some pivot =>
        match pivot.recurrenceSeriesId with
        | none => []
        | some seriesId =>
            match r.scope with
            | .series => scopeRows db seriesId none
            | .thisAndFollowing => scopeRows db seriesId (some (startAt slot pivot))
    | _, _ => []

/-- The occurrences that a preview lists. -/
def ScopeRequest.listed (db : BookingDb) : List Nat :=
  r.rowsFrom db fun slot _ => slot.startAt

/-- The occurrences that a commit edits: those that its split moves, if it splits. -/
def ScopeRequest.followed (db : BookingDb) : List Nat :=
  r.rowsFrom db fun _ pivot => pivot.startAt

def ScopeRequest.occurrence (p : Nat × EditPlan) : EditCall := (r.call []).edit p

def ScopeRequest.Plans (db : BookingDb) (ids : List Nat)
    (plans : List (Nat × EditPlan)) : Prop :=
  List.Forall₂ (fun id p => planOccurrence r.planEnv db r.patch r.resolutionAt id = .ok p) ids plans

end

structure Accepted (r : ScopeRequest) (db : BookingDb) (ids : List Nat)
    (plans : List (Nat × EditPlan)) : Prop where
  known : KnownActor r.env.userOf r.actorUserId
  nonempty : ids ≠ []
  few : ids.length ≤ maxScopeOccurrences
  planned : r.Plans db ids plans
  checked : ∀ p ∈ plans, ∃ b action, Checked (r.occurrence p) db b action

/-- Moved one after the other, the slots never hold a room together with another one, and the
approvers of every occurrence can be asked. -/
structure Writable (r : ScopeRequest) (db : BookingDb) (plans : List (Nat × EditPlan)) : Prop where
  rooms : ∀ pre p post, plans = pre ++ p :: post →
    hasOverlap (moveSlots (pre ++ [p]) db.slots) = false
  approvers : ∀ p ∈ plans, ∀ b action, Checked (r.occurrence p) db b action →
    AsksFreely (r.occurrence p) db.approvals action

def Accepts (r : ScopeRequest) (db : BookingDb) (ids : List Nat) : Prop :=
  ∃ plans, Accepted r db ids plans

def CanBeWritten (r : ScopeRequest) (db : BookingDb) (ids : List Nat) : Prop :=
  ∀ plans, r.Plans db ids plans → Writable r db plans

/-- A request that was not sent before, with ids that are not in use; a booking's series exists. -/
structure NewRequest (store : BookingStore) (r : ScopeRequest) : Prop where
  editKey : store.operations.get? r.idempotencyKey = none
  splitKey : store.operations.get? r.splitKey = none
  silent : ∀ e ∈ store.db.outbox.rows, e.idempotencyKey.commandKey? ≠ some r.idempotencyKey
  newSeries : store.series.get? r.newSeriesId = none
  newApprovals : ∀ id place, store.db.approvals.get? (r.newApprovalId id place) = none
  distinct : ∀ id place id' place', r.newApprovalId id place = r.newApprovalId id' place' →
    id = id' ∧ place = place'
  hasSeries : ∀ b ∈ store.db.bookings.rows, ∀ seriesId, b.recurrenceSeriesId = some seriesId →
    store.series.get? seriesId ≠ none

/-! ## The prediction -/

/-- The booking of a previewed occurrence has the room, the start and the status that the preview
announced, its first slot is there, and its approvals are ended and asked as announced. -/
structure EditedAs (now : Nat) (db db' : BookingDb) (o : OccurrencePreview) : Prop where
  booking : ∃ b b', db.bookings.get? o.bookingId = some b ∧ db'.bookings.get? o.bookingId = some b' ∧
    b'.locationId = o.spaceIdAfter ∧ b'.startAt = o.startAtAfter ∧
      b'.status = o.approvalAction.statusTarget.getD b.status
  slot : ∃ s, primarySlot db' o.bookingId = some s ∧ s.spaceId = o.spaceIdAfter ∧
    s.startAt = o.startAtAfter
  approvals : ∃ new, db'.approvals.rows.filter (aboutBooking o.bookingId) =
      (db.approvals.rows.filter (aboutBooking o.bookingId)).map (fun row =>
        if o.approvalAction.expires then
          Table.updated (expiredByEdit (approvalState db.approvals o.bookingId) o.bookingId)
            (supersede now) row
        else row) ++ new ∧
    (∀ row ∈ new, row.status = .pending) ∧ (new ≠ [] ↔ o.approvalAction.inserts = true)

structure Untouched (db db' : BookingDb) (id : Nat) : Prop where
  booking : (db'.bookings.get? id).map (fun b => { b with recurrenceSeriesId := none }) =
    (db.bookings.get? id).map fun b => { b with recurrenceSeriesId := none }
  rows : SameRowsOf { db with bookings := db'.bookings } db' id

/-- The commit of a request succeeds exactly when its dry run does and then edits the occurrences
that it listed as it announced, and no others. -/
structure CommitFollows (store : BookingStore) (r : ScopeRequest) : Prop where
  agrees : (∃ response, (editScope store r true).2 = .ok response) ↔
    ∃ response, (editScope store r false).2 = .ok response
  announced : ∀ store₁ newSeriesId seriesId occurrences store' response,
    editScope store r true = (store₁, .ok ⟨newSeriesId, .preview seriesId occurrences⟩) →
      editScope store r false = (store', .ok response) →
        (∃ editedSeriesId edits, response.result = .committed (.editedScope editedSeriesId edits) ∧
          edits.map OccurrenceEdit.bookingId = occurrences.map OccurrencePreview.bookingId) ∧
        (∀ o ∈ occurrences, EditedAs r.now store.db store'.db o) ∧
          ∀ id, id ∉ occurrences.map OccurrencePreview.bookingId → Untouched store.db store'.db id

/-- The dry run changes no row, and the commit after it succeeds exactly when the dry run does and
then edits the occurrences that it listed as it announced, and no others. -/
structure PreviewPredicts (tables : ScopeTables) (r : ScopeRequest)
    (previewedAt committedAt : Int) : Prop where
  reads : (claimAndEditScope tables r previewedAt true).1 = tables
  agrees : (∃ response, (claimAndEditScope tables r previewedAt true).2 = .ok response) ↔
    ∃ response, (claimAndEditScope (claimAndEditScope tables r previewedAt true).1 r committedAt
      false).2 = .ok response
  announced : ∀ previewed newSeriesId seriesId occurrences committed response,
    claimAndEditScope tables r previewedAt true =
        (previewed, .ok ⟨newSeriesId, .preview seriesId occurrences⟩) →
      claimAndEditScope previewed r committedAt false = (committed, .ok response) →
        (∃ editedSeriesId edits, response.result = .committed (.editedScope editedSeriesId edits) ∧
          edits.map OccurrenceEdit.bookingId = occurrences.map OccurrencePreview.bookingId) ∧
        (∀ o ∈ occurrences, EditedAs r.now tables.store.db committed.store.db o) ∧
          ∀ id, id ∉ occurrences.map OccurrencePreview.bookingId →
            Untouched tables.store.db committed.store.db id

/-! ## Planning and checking -/

variable {call : ScopeCall}

section

variable {store store' : BookingStore} {db base : BookingDb} {r : ScopeRequest} {ids : List Nat}
  {plans : List (Nat × EditPlan)} {seriesId : Nat} {startFrom : Option Int}
  {newSeriesId : Option Nat} {response : ScopeResponse}

theorem plans_unique {plans' : List (Nat × EditPlan)} (h : r.Plans db ids plans)
    (h' : r.Plans db ids plans') : plans = plans' := by
  have hok := mapM_eq_ok.mpr h
  rw [mapM_eq_ok.mpr h'] at hok
  exact (Except.ok.inj hok).symm

theorem checked_unique {call : EditCall} {b b' : BookingRow} {action action' : EditAction}
    (h : Checked call db b action) (h' : Checked call db b' action') : b = b' ∧ action = action' := by
  have hok := checkEdit_eq_ok.mpr h
  rw [checkEdit_eq_ok.mpr h', Except.ok.injEq, Prod.mk.injEq] at hok
  exact ⟨hok.1.symm, hok.2.symm⟩

theorem Accepted.valid (h : Accepted r db ids plans) : ValidPlans plans := by
  have hlength : ids.length = plans.length := h.planned.length_eq
  refine ⟨?_, by rw [← hlength]; exact h.few, ?_⟩
  · intro hnil
    rw [hnil, List.length_nil] at hlength
    exact h.nonempty (List.length_eq_zero_iff.mp hlength)
  · intro p hp
    obtain ⟨id, _, hplan⟩ := forall₂_exists_left h.planned hp
    obtain ⟨_, booking, slot, hplanned⟩ := planned_of_planOccurrence hplan
    rw [hplanned.slotPlan_eq]
    rfl

theorem scopeSeries_of_rows (hrows : call.plans.map Prod.fst = scopeRows db seriesId startFrom)
    (hsome : call.plans ≠ []) : scopeSeries call db = .ok seriesId := by
  have hin : ∀ id ∈ scopeRows db seriesId startFrom, ∃ b, db.bookings.get? id = some b ∧
      b.recurrenceSeriesId = some seriesId := by
    intro id hid
    obtain ⟨b, hb, rfl⟩ := List.mem_map.mp ((List.perm_insertionSort _ _).mem_iff.mp hid)
    obtain ⟨hmem, hscope⟩ := List.mem_filter.mp hb
    simp only [inScope, Bool.and_eq_true, beq_iff_eq] at hscope
    exact ⟨b, Table.get?_of_mem hmem, hscope.1.1⟩
  have hall : ∀ id ∈ scopeRows db seriesId startFrom,
      (db.bookings.get? id).bind BookingRow.recurrenceSeriesId = some seriesId := by
    intro id hid
    obtain ⟨b, hget, hseries⟩ := hin id hid
    rw [hget]
    exact hseries
  have hnone : ((scopeRows db seriesId startFrom).filter fun id =>
      (db.bookings.get? id).isNone) = [] := by
    refine List.filter_eq_nil_iff.mpr ?_
    intro id hid
    obtain ⟨b, hget, _⟩ := hin id hid
    rw [hget]
    exact Bool.false_ne_true
  have hlength : (scopeRows db seriesId startFrom).length ≠ 0 := by
    rw [← hrows, List.length_map]
    exact fun hzero => hsome (List.length_eq_zero_iff.mp hzero)
  unfold scopeSeries
  simp only [hrows]
  rw [if_neg (not_not_intro (nodup_scopeRows db seriesId startFrom)), hnone,
    List.map_congr_left hall, List.map_const', List.replicate_dedup hlength]
  rfl

theorem apply_eq_ok {dryRun : Bool} : r.apply store seriesId startFrom newSeriesId dryRun =
      (store', .ok response) ↔
    ∃ plans result, assembleScopeEditPlan r.planEnv store.db r.bookingId seriesId r.patch
        r.resolutionAt startFrom = .ok plans ∧
      editBookingScope store (r.call plans) dryRun = .ok (store', result) ∧
        response = ⟨newSeriesId, result⟩ := by
  unfold ScopeRequest.apply
  cases assembleScopeEditPlan r.planEnv store.db r.bookingId seriesId r.patch r.resolutionAt
      startFrom with
  | error e => exact iff_of_false nofun fun ⟨_, _, h, _⟩ => by cases h
  | ok plans =>
    simp only
    cases hedit : editBookingScope store (r.call plans) dryRun with
    | error e =>
      refine iff_of_false nofun ?_
      rintro ⟨plans', result, hplans, hok, _⟩
      cases hplans
      rw [hedit] at hok
      cases hok
    | ok x =>
      constructor
      · intro h
        cases h
        exact ⟨plans, _, rfl, hedit, rfl⟩
      · rintro ⟨plans', result, hplans, hok, rfl⟩
        cases hplans
        rw [hedit] at hok
        cases hok
        rfl

/-! ## The dry run -/

theorem accepted_of_preview (h : r.apply store seriesId startFrom newSeriesId true =
    (store', .ok response)) : Accepts r store.db (scopeRows store.db seriesId startFrom) ∧
      store' = store := by
  obtain ⟨plans, result, hassembled, hedit, _⟩ := apply_eq_ok.mp h
  obtain ⟨_, hnonempty, hfew, hplanned⟩ := assembleScopeEditPlan_ok hassembled
  obtain ⟨hkey, hvalid, hknown⟩ := editBookingScope_ok hedit
  rw [editBookingScope_eq hkey hvalid hknown] at hedit
  unfold editBookingScope.run at hedit
  rw [if_pos rfl] at hedit
  cases hpreview : previewScope (r.call plans) store.db with
  | error e =>
    rw [hpreview] at hedit
    cases hedit
  | ok preview =>
    rw [hpreview] at hedit
    cases hedit
    refine ⟨⟨plans, hknown, hnonempty, hfew, hplanned, ?_⟩, rfl⟩
    unfold previewScope at hpreview
    split at hpreview
    · cases hpreview
    split at hpreview
    · cases hpreview
    rename_i hoccurrences
    intro p hp
    obtain ⟨o, _, ho⟩ := forall₂_exists_right (mapM_eq_ok.mp hoccurrences) hp
    unfold previewOccurrence at ho
    split at ho
    · cases ho
    rename_i b action hcheck
    exact ⟨b, action, checkEdit_eq_ok.mp hcheck⟩

theorem Accepted.preview
    (h : Accepted r store.db (scopeRows store.db seriesId startFrom) plans)
    (hseries : (store.db.bookings.get? r.bookingId).bind BookingRow.recurrenceSeriesId =
      some seriesId) :
    ∃ occurrences, r.apply store seriesId startFrom newSeriesId true =
        (store, .ok ⟨newSeriesId, .preview seriesId occurrences⟩) ∧
      List.Forall₂ (fun p o => previewOccurrence (r.call plans) store.db p = .ok o) plans
        occurrences := by
  have hpreview : ∀ p ∈ plans, ∃ o, previewOccurrence (r.call plans) store.db p = .ok o := by
    intro p hp
    obtain ⟨b, action, hchecked⟩ := h.checked p hp
    have hcheck : checkEdit ((r.call plans).edit p) store.db = .ok (b, action) :=
      checkEdit_eq_ok.mpr hchecked
    unfold previewOccurrence
    rw [hcheck]
    exact ⟨_, rfl⟩
  obtain ⟨occurrences, hoccurrences⟩ := exists_forall₂ hpreview
  refine ⟨occurrences, apply_eq_ok.mpr ⟨plans, _, assembleScopeEditPlan_of hseries rfl h.nonempty
    h.few h.planned, ?_, rfl⟩, hoccurrences⟩
  rw [editBookingScope_eq r.idempotencyKey_ne_empty h.valid h.known]
  unfold editBookingScope.run previewScope
  have hrows : (r.call plans).plans.map Prod.fst = scopeRows store.db seriesId startFrom :=
    map_fst_plans h.planned
  rw [if_pos rfl, scopeSeries_of_rows hrows h.valid.nonempty]
  simp only
  rw [show (r.call plans).plans = plans from rfl, mapM_eq_ok.mpr hoccurrences]
  rfl

/-! ## The commit -/

theorem outs_of_steps {outs : List OccurrenceEdit}
    (h : Steps (commitOccurrence call) db plans base outs) :
    outs.map OccurrenceEdit.bookingId = plans.map Prod.fst := by
  induction h with
  | nil => rfl
  | cons hhead _ ih =>
    rw [List.map_cons, List.map_cons, ih]
    unfold commitOccurrence at hhead
    split at hhead
    · cases hhead
    split at hhead
    · cases hhead
    cases hhead
    rfl

theorem steps_iff (hplanned : r.Plans db ids plans) (hnodup : ids.Nodup)
    (hfresh : DrawsFresh (r.call plans) db) :
    (∃ db' outs, Steps (commitOccurrence (r.call plans)) db plans db' outs) ↔
      (∀ p ∈ plans, ∃ b action, Checked (r.occurrence p) db b action) ∧ Writable r db plans := by
  have hone : ∀ p ∈ plans, OneSlot p.2 := by
    intro p hp
    obtain ⟨id, _, hplan⟩ := forall₂_exists_left hplanned hp
    obtain ⟨_, booking, slot, hplanned⟩ := planned_of_planOccurrence hplan
    exact hplanned.oneSlot
  rw [(Running.start hfresh).steps_iff hfresh (by rw [List.nil_append, map_fst_plans hplanned]; exact
    hnodup) hone]
  constructor
  · intro hall
    refine ⟨?_, ?_, ?_⟩
    · intro p hp
      obtain ⟨pre, post, hsplit⟩ := List.append_of_mem hp
      obtain ⟨b, action, hchecked, _, _⟩ := hall pre p post hsplit
      exact ⟨b, action, hchecked⟩
    · intro pre p post hsplit
      obtain ⟨_, _, _, hoverlap, _⟩ := hall pre p post hsplit
      exact hoverlap
    · intro p hp b action hchecked
      obtain ⟨pre, post, hsplit⟩ := List.append_of_mem hp
      obtain ⟨b', action', hchecked', _, hasks⟩ := hall pre p post hsplit
      obtain ⟨_, rfl⟩ := checked_unique hchecked hchecked'
      exact hasks
  · rintro ⟨hchecked, hwritable⟩ pre p post hsplit
    have hp : p ∈ plans := by
      rw [hsplit]
      exact List.mem_append_right pre List.mem_cons_self
    obtain ⟨b, action, hcheck⟩ := hchecked p hp
    exact ⟨b, action, hcheck, hwritable.rooms pre p post hsplit, hwritable.approvers p hp b action hcheck⟩

theorem apply_commit_iff (hnew : store.operations.get? r.idempotencyKey = none)
    (hseries : (store.db.bookings.get? r.bookingId).bind BookingRow.recurrenceSeriesId =
      some seriesId)
    (hfresh : ∀ plans, DrawsFresh (r.call plans) store.db) :
    (∃ store' response, r.apply store seriesId startFrom newSeriesId false =
        (store', .ok response)) ↔
      Accepts r store.db (scopeRows store.db seriesId startFrom) ∧
        CanBeWritten r store.db (scopeRows store.db seriesId startFrom) := by
  have hnodup := nodup_scopeRows store.db seriesId startFrom
  constructor
  · rintro ⟨store', response, h⟩
    obtain ⟨plans, result, hassembled, hedit, _⟩ := apply_eq_ok.mp h
    obtain ⟨_, hnonempty, hfew, hplanned⟩ := assembleScopeEditPlan_ok hassembled
    obtain ⟨hkey, hvalid, hknown⟩ := editBookingScope_ok hedit
    rw [editBookingScope_eq hkey hvalid hknown] at hedit
    obtain ⟨_, hused⟩ | ⟨_, _, outs, _, hsteps, _⟩ := run_ok hedit
    · exact absurd hnew hused
    · obtain ⟨hchecked, hwritable⟩ :=
        (steps_iff hplanned hnodup (hfresh plans)).mp ⟨_, outs, hsteps⟩
      refine ⟨⟨plans, hknown, hnonempty, hfew, hplanned, hchecked⟩, fun plans' hplans' => ?_⟩
      rw [plans_unique hplans' hplanned]
      exact hwritable
  · rintro ⟨⟨plans, h⟩, hwritable⟩
    obtain ⟨db', outs, hsteps⟩ := (steps_iff h.planned hnodup (hfresh plans)).mpr
      ⟨h.checked, hwritable plans h.planned⟩
    have hrows : (r.call plans).plans.map Prod.fst = scopeRows store.db seriesId startFrom :=
      map_fst_plans h.planned
    have hunused : store.operations.get? (r.call plans).idempotencyKey = none := hnew
    have hrun : ∃ x, editBookingScope.run store (r.call plans) false = .ok x := by
      unfold editBookingScope.run commitScope
      rw [if_neg Bool.false_ne_true, gate_eq_proceed.mpr hunused]
      simp only
      rw [scopeSeries_of_rows hrows h.valid.nonempty]
      simp only
      rw [show (r.call plans).plans = plans from rfl, loop_eq_ok.mpr hsteps]
      exact ⟨_, rfl⟩
    obtain ⟨⟨store', result⟩, hrun⟩ := hrun
    refine ⟨store', ⟨newSeriesId, result⟩, apply_eq_ok.mpr ⟨plans, result,
      assembleScopeEditPlan_of hseries rfl h.nonempty h.few h.planned, ?_, rfl⟩⟩
    rw [editBookingScope_eq r.idempotencyKey_ne_empty h.valid h.known]
    exact hrun

structure Reseries (db base : BookingDb) (seriesOf : BookingRow → Option Nat) : Prop where
  bookings : ∀ id, base.bookings.get? id =
    (db.bookings.get? id).map fun b => { b with recurrenceSeriesId := seriesOf b }
  rest : base = { db with bookings := base.bookings }

variable {seriesOf : BookingRow → Option Nat}

theorem Reseries.refl (db : BookingDb) : Reseries db db BookingRow.recurrenceSeriesId where
  bookings := fun _ => Option.map_id'.symm
  rest := rfl

theorem Reseries.requesterOf_eq (h : Reseries db base seriesOf) : requesterOf base = requesterOf db := by
  funext k
  unfold requesterOf
  rw [h.bookings, Option.map_map]
  rfl

theorem Reseries.slots (h : Reseries db base seriesOf) : base.slots = db.slots := by
  rw [h.rest]

theorem Reseries.approvals (h : Reseries db base seriesOf) : base.approvals = db.approvals := by
  rw [h.rest]

theorem Reseries.plans_iff (h : Reseries db base seriesOf) :
    r.Plans base ids plans ↔ r.Plans db ids plans := by
  have hbuffers : r.planEnv.snapshotBuffers base = r.planEnv.snapshotBuffers db := by
    funext person slotId spaceId startAt endAt
    unfold EditPlanEnv.snapshotBuffers snapshotBuffersForBooking collapse
    rw [h.requesterOf_eq, h.slots]
  have hlinked : buildLinkedRowPatches base = buildLinkedRowPatches db := by
    funext bookingId m
    unfold buildLinkedRowPatches
    rw [h.rest]
  have hplan : ∀ id, planOccurrence r.planEnv base r.patch r.resolutionAt id =
      planOccurrence r.planEnv db r.patch r.resolutionAt id := by
    intro id
    have hprimary : primarySlot base id = primarySlot db id := by
      unfold primarySlot
      rw [h.slots]
    have hscope : needsBookingScope base id = needsBookingScope db id := by
      unfold needsBookingScope
      rw [h.rest]
    unfold planOccurrence
    rw [hprimary]
    cases primarySlot db id with
    | none => rfl
    | some slot =>
      simp only
      unfold buildSingleSlotPlan assembleEditPlan
      rw [h.bookings, h.slots, h.approvals, hscope]
      cases db.bookings.get? id with
      | none => rfl
      | some b =>
        simp only [Option.map_some]
        unfold EditPlanEnv.reads
        rw [hbuffers, hlinked]
        rfl
  unfold ScopeRequest.Plans
  simp only [hplan]

theorem Reseries.checked_iff (h : Reseries db base seriesOf) {call : EditCall} {action : EditAction} :
    (∃ b, Checked call base b action) ↔ ∃ b, Checked call db b action := by
  have hworkOrders : base.workOrders = db.workOrders := by rw [h.rest]
  have horders : base.orders = db.orders := by rw [h.rest]
  have hassets : base.assetReservations = db.assetReservations := by rw [h.rest]
  constructor
  · rintro ⟨b', hchecked⟩
    have hget := hchecked.booking
    rw [h.bookings] at hget
    obtain ⟨b, hb, rfl⟩ := Option.map_eq_some_iff.mp hget
    refine ⟨b, hb, hchecked.notCancelled, hchecked.notStale, ?_, hchecked.approvers,
      hchecked.refers.entities, ?_, ?_, ?_⟩
    · rw [← h.approvals]
      exact hchecked.decided
    · rw [← hworkOrders]
      exact hchecked.refers.workOrders
    · rw [← horders]
      exact hchecked.refers.orders
    · rw [← hassets]
      exact hchecked.refers.assets
  · rintro ⟨b, hchecked⟩
    have hget := h.bookings call.bookingId
    rw [hchecked.booking, Option.map_some] at hget
    refine ⟨_, hget, hchecked.notCancelled, hchecked.notStale, ?_, hchecked.approvers,
      hchecked.refers.entities, ?_, ?_, ?_⟩
    · rw [h.approvals]
      exact hchecked.decided
    · rw [hworkOrders]
      exact hchecked.refers.workOrders
    · rw [horders]
      exact hchecked.refers.orders
    · rw [hassets]
      exact hchecked.refers.assets

theorem Reseries.accepts_iff (h : Reseries db base seriesOf) :
    Accepts r base ids ↔ Accepts r db ids := by
  have hchecked : ∀ p : Nat × EditPlan, (∃ b action, Checked (r.occurrence p) base b action) ↔
      ∃ b action, Checked (r.occurrence p) db b action := by
    intro p
    constructor
    · rintro ⟨b, action, hchecked⟩
      obtain ⟨b', hchecked'⟩ := h.checked_iff.mp ⟨b, hchecked⟩
      exact ⟨b', action, hchecked'⟩
    · rintro ⟨b, action, hchecked⟩
      obtain ⟨b', hchecked'⟩ := h.checked_iff.mpr ⟨b, hchecked⟩
      exact ⟨b', action, hchecked'⟩
  constructor
  · rintro ⟨plans, hacc⟩
    exact ⟨plans, hacc.known, hacc.nonempty, hacc.few, h.plans_iff.mp hacc.planned,
      fun p hp => (hchecked p).mp (hacc.checked p hp)⟩
  · rintro ⟨plans, hacc⟩
    exact ⟨plans, hacc.known, hacc.nonempty, hacc.few, h.plans_iff.mpr hacc.planned,
      fun p hp => (hchecked p).mpr (hacc.checked p hp)⟩

theorem Reseries.canBeWritten_iff (h : Reseries db base seriesOf) :
    CanBeWritten r base ids ↔ CanBeWritten r db ids := by
  have hwritable : ∀ plans, Writable r base plans ↔ Writable r db plans := by
    intro plans
    constructor
    · rintro ⟨hrooms, happrovers⟩
      rw [h.slots] at hrooms
      rw [h.approvals] at happrovers
      refine ⟨hrooms, fun p hp b action hchecked => ?_⟩
      obtain ⟨b', hchecked'⟩ := h.checked_iff.mpr ⟨b, hchecked⟩
      exact happrovers p hp b' action hchecked'
    · rintro ⟨hrooms, happrovers⟩
      refine ⟨by rw [h.slots]; exact hrooms, ?_⟩
      rw [h.approvals]
      intro p hp b action hchecked
      obtain ⟨b', hchecked'⟩ := h.checked_iff.mp ⟨b, hchecked⟩
      exact happrovers p hp b' action hchecked'
  unfold CanBeWritten
  simp only [h.plans_iff, hwritable]

end

/-! ## The two operations -/

structure Found (store : BookingStore) (r : ScopeRequest) (slot : SlotRow) (pivot : BookingRow)
    (seriesId : Nat) : Prop where
  noTimes : r.timeShift = false
  hasSlot : primarySlot store.db r.bookingId = some slot
  hasPivot : store.db.bookings.get? r.bookingId = some pivot
  series : pivot.recurrenceSeriesId = some seriesId

section

variable {store store' : BookingStore} {r : ScopeRequest} {slot : SlotRow} {pivot : BookingRow}
  {seriesId : Nat} {response : ScopeResponse}

theorem found_or_refused (store : BookingStore) (r : ScopeRequest) :
    (∃ slot pivot seriesId, Found store r slot pivot seriesId) ∨
      (∀ dryRun, ∃ e, editScope store r dryRun = (store, .error e)) ∧
        ∀ startAt, r.rowsFrom store.db startAt = [] := by
  unfold editScope ScopeRequest.rowsFrom
  cases htimes : r.timeShift with
  | true => exact .inr ⟨fun dryRun => ⟨_, if_pos rfl⟩, fun startAt => if_pos rfl⟩
  | false =>
    simp only [if_neg Bool.false_ne_true]
    cases hslot : primarySlot store.db r.bookingId with
    | none => exact .inr ⟨fun dryRun => ⟨_, rfl⟩, fun startAt => rfl⟩
    | some slot =>
      cases hpivot : store.db.bookings.get? r.bookingId with
      | none => exact .inr ⟨fun dryRun => ⟨_, rfl⟩, fun startAt => rfl⟩
      | some pivot =>
        simp only
        cases hseries : pivot.recurrenceSeriesId with
        | none => exact .inr ⟨fun dryRun => ⟨_, rfl⟩, fun startAt => rfl⟩
        | some seriesId => exact .inl ⟨slot, pivot, seriesId, htimes, hslot, hpivot, hseries⟩

theorem Found.ofPivot (h : Found store r slot pivot seriesId) :
    (store.db.bookings.get? r.bookingId).bind BookingRow.recurrenceSeriesId = some seriesId := by
  rw [h.hasPivot]
  exact h.series

theorem Found.rowsFrom_eq (h : Found store r slot pivot seriesId)
    (startAt : SlotRow → BookingRow → Int) : r.rowsFrom store.db startAt =
      scopeRows store.db seriesId (match r.scope with
        | .series => none
        | .thisAndFollowing => some (startAt slot pivot)) := by
  unfold ScopeRequest.rowsFrom
  rw [h.noTimes, if_neg Bool.false_ne_true, h.hasSlot, h.hasPivot]
  simp only [h.series]
  cases r.scope <;> rfl

theorem Found.preview_eq (h : Found store r slot pivot seriesId) : editScope store r true =
    r.apply store seriesId (match r.scope with
      | .series => none
      | .thisAndFollowing => some slot.startAt) none true := by
  unfold editScope
  rw [h.noTimes, if_neg Bool.false_ne_true, h.hasSlot, h.hasPivot]
  simp only [h.series]
  cases r.scope <;> rfl

theorem preview_store (store : BookingStore) (r : ScopeRequest) :
    (editScope store r true).1 = store := by
  obtain ⟨slot, pivot, seriesId, hfound⟩ | ⟨hrefused, _⟩ := found_or_refused store r
  · cases hpreview : editScope store r true with
    | mk store' answer =>
      rw [hfound.preview_eq] at hpreview
      cases answer with
      | error e => exact apply_of_error hpreview
      | ok response => exact (accepted_of_preview hpreview).2
  · obtain ⟨e, he⟩ := hrefused true
    rw [he]

/-- The preview says that the edit would succeed exactly when the planner and the checks let its
occurrences through. -/
theorem preview_iff (store : BookingStore) (r : ScopeRequest) :
    (∃ response, (editScope store r true).2 = .ok response) ↔
      Accepts r store.db (r.listed store.db) := by
  obtain ⟨slot, pivot, seriesId, hfound⟩ | ⟨hrefused, hnone⟩ := found_or_refused store r
  · unfold ScopeRequest.listed
    rw [hfound.rowsFrom_eq, hfound.preview_eq]
    constructor
    · rintro ⟨response, hok⟩
      exact (accepted_of_preview (Prod.ext rfl hok)).1
    · rintro ⟨plans, hacc⟩
      obtain ⟨occurrences, happly, _⟩ := hacc.preview hfound.ofPivot
      exact ⟨_, congrArg Prod.snd happly⟩
  · obtain ⟨e, he⟩ := hrefused true
    refine iff_of_false ?_ ?_
    · rintro ⟨response, hok⟩
      rw [he] at hok
      cases hok
    · rintro ⟨plans, hacc⟩
      exact hacc.nonempty (hnone _)

theorem known_of_commit (h : (editScope store r false).2 = .ok response)
    (hfound : Found store r slot pivot seriesId) : KnownActor r.env.userOf r.actorUserId := by
  have hslot : primarySlot store.db r.bookingId ≠ none := by
    rw [hfound.hasSlot]
    exact Option.some_ne_none _
  rw [editScope_eq hfound.noTimes hslot hfound.ofPivot] at h
  split at h
  · obtain ⟨plans, result, _, hedit, _⟩ := apply_eq_ok.mp (Prod.ext rfl h)
    exact (editBookingScope_ok hedit).2.2
  · split at h
    · cases h
    · rename_i hsplit
      exact (splitSeries_records hsplit).2.1
    · cases h

variable {db : BookingDb}

theorem scopeRows_split {bookings : Table BookingRow} {newSeriesId : Nat}
    (hbookings : bookings = splitBookings db.bookings pivot seriesId newSeriesId)
    (hnew : ∀ b ∈ db.bookings.rows, b.recurrenceSeriesId ≠ some newSeriesId) :
    scopeRows { db with bookings := bookings } newSeriesId none =
      scopeRows db seriesId (some pivot.startAt) := by
  subst hbookings
  unfold scopeRows splitBookings
  generalize hu : Table.updated (movesTo pivot seriesId)
    ⟨fun b => { b with recurrenceSeriesId := some newSeriesId }, fun _ => rfl⟩ = u
  rw [show (db.bookings.update (movesTo pivot seriesId)
      ⟨fun b => { b with recurrenceSeriesId := some newSeriesId }, fun _ => rfl⟩).rows =
    db.bookings.rows.map u by
      rw [← hu]
      rfl, List.filter_map, List.map_map]
  have hid : BookingRow.id ∘ u = BookingRow.id := by
    funext b
    rw [← hu]
    exact Table.key_updated _ _ b
  have hin : db.bookings.rows.filter (inScope newSeriesId none ∘ u) =
      db.bookings.rows.filter (inScope seriesId (some pivot.startAt)) := by
    refine List.filter_congr fun b hb => ?_
    rw [Function.comp_apply, ← hu]
    cases hmoves : movesTo pivot seriesId b with
    | true =>
      rw [Table.updated_of_true hmoves]
      simp only [movesTo, Bool.and_eq_true, beq_iff_eq, decide_eq_true_eq] at hmoves
      simp [inScope, hmoves.1, hmoves.2]
    | false =>
      rw [Table.updated_of_false hmoves]
      have hother : (b.recurrenceSeriesId == some newSeriesId) = false := by
        rw [beq_eq_false_iff_ne]
        exact hnew b hb
      unfold movesTo at hmoves
      unfold inScope
      rw [hother]
      simp only [Bool.false_and]
      rcases Bool.and_eq_false_iff.mp hmoves with hseries | hstart
      · simp [hseries]
      · simp [hstart]
  rw [hid, hin]

theorem SplitDone.reseries {call : SplitCall} {source : SeriesRow} {result : BookingResult}
    (h : SplitDone store call pivot source store' result) :
    Reseries store.db store'.db fun b =>
      if movesTo pivot source.id b then some call.newSeriesId else b.recurrenceSeriesId := by
  rw [h.db]
  refine ⟨fun id => ?_, rfl⟩
  show (splitBookings store.db.bookings pivot source.id call.newSeriesId).get? id = _
  unfold splitBookings
  rw [Table.get?_update]
  congr 1
  funext b
  unfold Table.updated
  cases movesTo pivot source.id b <;> rfl

theorem exists_base (hnew : NewRequest store r) (hfound : Found store r slot pivot seriesId)
    (hknown : KnownActor r.env.userOf r.actorUserId) :
    ∃ base seriesOf baseSeriesId newSeriesId, Reseries store.db base.db seriesOf ∧
      base.operations.get? r.idempotencyKey = none ∧
        (base.db.bookings.get? r.bookingId).bind BookingRow.recurrenceSeriesId = some baseSeriesId ∧
          scopeRows base.db baseSeriesId none = r.followed store.db ∧
            editScope store r false = r.apply base baseSeriesId none newSeriesId false := by
  have hslot : primarySlot store.db r.bookingId ≠ none := by
    rw [hfound.hasSlot]
    exact Option.some_ne_none _
  have hcommit := editScope_eq hfound.noTimes hslot hfound.ofPivot
  have hrows := hfound.rowsFrom_eq fun _ pivot => pivot.startAt
  cases hscope : r.scope with
  | series =>
    rw [hscope] at hcommit hrows
    exact ⟨store, BookingRow.recurrenceSeriesId, seriesId, none, .refl store.db, hnew.editKey,
      hfound.ofPivot, hrows.symm, hcommit⟩
  | thisAndFollowing =>
    rw [hscope] at hcommit hrows
    have hpivot := Table.get?_eq_some.mp hfound.hasPivot
    obtain ⟨source, hsource⟩ := Option.ne_none_iff_exists'.mp
      (hnew.hasSeries pivot hpivot.1 seriesId hfound.series)
    have hsourceId : source.id = seriesId := (Table.get?_eq_some.mp hsource).2
    subst hsourceId
    have hkey : r.splitCall.idempotencyKey ≠ "" := by
      show r.splitKey ≠ ""
      unfold ScopeRequest.splitKey
      intro h
      have hlength := congrArg String.length h
      simp only [String.length_append] at hlength
      rw [show "booking:recurrence:split:".length = 25 from rfl,
        show "".length = 0 from rfl] at hlength
      omega
    have hruns : SplitRuns store r.splitCall pivot source :=
      ⟨hkey, hknown, hnew.splitKey, hfound.hasPivot, hfound.series, hsource, hnew.newSeries⟩
    obtain ⟨base, result, hsplit, hdone⟩ := hruns.done
    obtain ⟨count, rfl⟩ := hdone.result
    have hmoves : movesTo pivot source.id pivot = true := by
      simp [movesTo, hfound.series]
    have hnone : ∀ b ∈ store.db.bookings.rows, b.recurrenceSeriesId ≠ some r.newSeriesId := by
      intro b hb hseries
      exact hnew.hasSeries b hb r.newSeriesId hseries hnew.newSeries
    refine ⟨base, _, r.newSeriesId, some r.newSeriesId, hdone.reseries, ?_, ?_, ?_, ?_⟩
    · exact (splitSeries_records hsplit).2.2.unused _ (idempotencyKey_ne_splitKey r) hnew.editKey
    · rw [hdone.reseries.bookings, hfound.hasPivot]
      exact if_pos hmoves
    · rw [hdone.db]
      exact (scopeRows_split rfl hnone).trans hrows.symm
    · rw [hcommit]
      simp only [hsplit]
      rfl

/-- The commit of a new request succeeds exactly when the planner and the checks let its occurrences
through and they can be written. -/
theorem commit_iff (hnew : NewRequest store r) :
    (∃ response, (editScope store r false).2 = .ok response) ↔
      Accepts r store.db (r.followed store.db) ∧ CanBeWritten r store.db (r.followed store.db) := by
  obtain ⟨slot, pivot, seriesId, hfound⟩ | ⟨hrefused, hnone⟩ := found_or_refused store r
  · by_cases hknown : KnownActor r.env.userOf r.actorUserId
    · obtain ⟨base, seriesOf, baseSeriesId, newSeriesId, hreseries, hunused, hseries, hrows, hcommit⟩ :=
        exists_base hnew hfound hknown
      have hfresh : ∀ plans, DrawsFresh (r.call plans) base.db := by
        intro plans
        rw [hreseries.rest]
        exact ⟨hnew.newApprovals, hnew.distinct, hnew.silent⟩
      have happly : (∃ store' response, r.apply base baseSeriesId none newSeriesId false =
          (store', .ok response)) ↔ _ := apply_commit_iff hunused hseries hfresh
      rw [hrows, hreseries.accepts_iff, hreseries.canBeWritten_iff] at happly
      rw [hcommit, ← happly]
      constructor
      · rintro ⟨response, hok⟩
        exact ⟨_, response, Prod.ext rfl hok⟩
      · rintro ⟨store', response, hok⟩
        exact ⟨response, by rw [hok]⟩
    · refine iff_of_false ?_ ?_
      · rintro ⟨response, hok⟩
        exact hknown (known_of_commit hok hfound)
      · rintro ⟨⟨plans, hacc⟩, _⟩
        exact hknown hacc.known
  · obtain ⟨e, he⟩ := hrefused false
    refine iff_of_false ?_ ?_
    · rintro ⟨response, hok⟩
      rw [he] at hok
      cases hok
    · rintro ⟨⟨plans, hacc⟩, _⟩
      exact hacc.nonempty (hnone _)

/-! ## The prediction, exactly -/

variable {id : Nat}

theorem primarySlot_of_filter {db' : BookingDb}
    (h : (db'.slots.rows.filter fun s => s.bookingId == id) =
      db.slots.rows.filter fun s => s.bookingId == id) : primarySlot db' id = primarySlot db id := by
  unfold primarySlot
  rw [← List.head?_filter, ← List.head?_filter, h]

variable {plans : List (Nat × EditPlan)} {occurrences : List OccurrencePreview}
  {seriesOf : BookingRow → Option Nat}

theorem editedAs_of_applied {base mid mid' db' : BookingDb} {p : Nat × EditPlan}
    {o : OccurrencePreview} {b : BookingRow} {action : EditAction}
    (hplan : planOccurrence r.planEnv db r.patch r.resolutionAt id = .ok p)
    (hpreview : previewOccurrence (r.call plans) db p = .ok o)
    (hreseries : Reseries db base seriesOf) (hsame : SameRowsOf base mid p.1)
    (hcheck : checkEdit ((r.call plans).edit p) mid = .ok (b, action))
    (happlied : AppliedEdit ((r.call plans).edit p) mid b action mid')
    (hkept : SameRowsOf mid' db' p.1) : EditedAs r.now db db' o := by
  unfold previewOccurrence at hpreview
  split at hpreview
  · cases hpreview
  rename_i b₀ action₀ hcheck₀
  cases hpreview
  have hchecked₀ := checkEdit_eq_ok.mp hcheck₀
  have hchecked := checkEdit_eq_ok.mp hcheck
  obtain rfl : action = action₀ := by
    obtain ⟨b₁, hchecked₁⟩ := hreseries.checked_iff.mp ⟨b, hchecked.frame hsame.symm⟩
    exact (checked_unique hchecked₁ hchecked₀).2
  have hb : b = { b₀ with recurrenceSeriesId := seriesOf b₀ } := by
    have hget : mid.bookings.get? p.1 = some b := hchecked.booking
    have hget₀ : db.bookings.get? p.1 = some b₀ := hchecked₀.booking
    rw [hsame.booking, hreseries.bookings, hget₀, Option.map_some] at hget
    exact (Option.some.inj hget).symm
  have hbid : b.id = p.1 := (Table.get?_eq_some.mp hchecked.booking).2
  obtain ⟨_, booking, slot, hplanned⟩ := planned_of_planOccurrence hplan
  have hslotPlan := hplanned.slotPlan_eq
  have hlocation : p.2.booking.locationId = r.patch.slotPatch.spaceId.getD slot.spaceId := by
    rw [hslotPlan]
    rfl
  have hstart : p.2.booking.startAt = r.patch.slotPatch.startAt.getD slot.startAt := by
    rw [hslotPlan]
    rfl
  refine ⟨⟨b₀, editedBooking p.2.booking (action.statusTarget.getD b.status) r.now b,
    hchecked₀.booking, ?_, rfl, rfl, ?_⟩, ?_, ?_⟩
  · show db'.bookings.get? p.1 = _
    rw [hkept.booking, happlied.bookings, Table.get?_update,
      show mid.bookings.get? p.1 = some b from hchecked.booking, Option.map_some,
      Table.updated_of_true (by rw [beq_self_eq_true])]
    rfl
  · rw [hb]
    rfl
  · have hslots := happlied.slots
    rw [hbid] at hslots
    have hbookingId : booking.id = p.1 := hplanned.hid
    rw [← hbookingId] at hslots
    obtain ⟨q, hq, hspace, hstart', _, _, _, hslots⟩ := slots_of_slotPlan hslotPlan hslots
    have hprimary : primarySlot mid p.1 = some slot := by
      rw [primarySlot_of_filter hsame.slots, ← hplanned.isPrimary]
      unfold primarySlot
      rw [hreseries.slots]
    have hmoved : ∀ s : SlotRow, (Table.updated (patchesSlot booking.id q) (applySlotPatch q)
        s).bookingId = s.bookingId := by
      intro s
      unfold Table.updated
      split <;> rfl
    refine ⟨(applySlotPatch q).apply slot, ?_, hspace.trans hlocation.symm,
      hstart'.trans hstart.symm⟩
    show primarySlot db' p.1 = _
    rw [primarySlot_of_filter hkept.slots]
    unfold primarySlot at hprimary ⊢
    rw [hslots, show (mid.slots.update (patchesSlot booking.id q) (applySlotPatch q)).rows =
      mid.slots.rows.map (Table.updated (patchesSlot booking.id q) (applySlotPatch q)) from rfl,
      List.find?_map]
    simp only [Function.comp_def, hmoved, hprimary, Option.map_some]
    rw [Table.updated_of_true (by simp [patchesSlot, hq, hplanned.hof, hbookingId])]
  · obtain ⟨new, hrows, hnew, hinserts⟩ := approvalsAfterEdit_rows happlied.approvals
    have habout : ∀ row, aboutBooking p.1 (rowAfterEdit ((r.call plans).edit p) mid.approvals action
        row) = aboutBooking p.1 row := by
      intro row
      unfold rowAfterEdit Table.updated
      split
      · split <;> rfl
      · rfl
    have hbefore : mid.approvals.rows.filter (aboutBooking p.1) =
        db.approvals.rows.filter (aboutBooking p.1) := by
      rw [hsame.approvals, hreseries.approvals]
    have hstate : approvalState mid.approvals p.1 = approvalState db.approvals p.1 :=
      approvalState_of_filter hbefore
    have hall : new.filter (aboutBooking p.1) = new :=
      List.filter_eq_self.mpr fun row hrow => (hnew row hrow).about
    refine ⟨new, ?_, fun row hrow => (hnew row hrow).pending, hinserts⟩
    show db'.approvals.rows.filter (aboutBooking p.1) = _
    rw [hkept.approvals, hrows, List.filter_append, List.filter_map,
      show (aboutBooking p.1 ∘ rowAfterEdit ((r.call plans).edit p) mid.approvals action) =
        aboutBooking p.1 from funext habout, hbefore,
      hall]
    congr 1
    refine List.map_congr_left fun row _ => ?_
    unfold rowAfterEdit
    rw [show approvalState mid.approvals ((r.call plans).edit p).bookingId =
      approvalState db.approvals p.1 from hstate]
    rfl

theorem untouched_of_same {base db' : BookingDb} (hreseries : Reseries db base seriesOf)
    (hsame : SameRowsOf base db' id) : Untouched db db' id := by
  have hrest := hreseries.rest
  constructor
  · rw [hsame.booking, hreseries.bookings, Option.map_map]
    rfl
  · refine ⟨rfl, ?_, ?_, ?_, ?_, ?_⟩
    · rw [hsame.slots, hrest]
    · rw [hsame.approvals, hrest]
    · rw [hsame.assets, hrest]
    · rw [hsame.orders, hrest]
    · rw [hsame.workOrders, hrest]

theorem commit_ok (hnew : NewRequest store r)
    (h : editScope store r false = (store', .ok response)) :
    ∃ base seriesOf plans editedSeriesId edits, Reseries store.db base seriesOf ∧
      r.Plans store.db (r.followed store.db) plans ∧ (r.followed store.db).Nodup ∧
        Steps (commitOccurrence (r.call plans)) base plans store'.db edits ∧
          response.result = .committed (.editedScope editedSeriesId edits) := by
  obtain ⟨slot, pivot, seriesId, hfound⟩ | ⟨hrefused, _⟩ := found_or_refused store r
  swap
  · obtain ⟨e, he⟩ := hrefused false
    rw [he] at h
    cases h
  have hknown := known_of_commit (congrArg Prod.snd h) hfound
  obtain ⟨base, seriesOf, baseSeriesId, newSeriesId, hreseries, hunused, _, hrows, hcommit⟩ :=
    exists_base hnew hfound hknown
  rw [hcommit] at h
  obtain ⟨plans, result, hassembled, hedit, rfl⟩ := apply_eq_ok.mp h
  obtain ⟨_, _, _, hplanned⟩ := assembleScopeEditPlan_ok hassembled
  have hnodup := nodup_scopeRows base.db baseSeriesId none
  rw [hrows] at hplanned hnodup
  obtain ⟨hkey, hvalid, hknown⟩ := editBookingScope_ok hedit
  rw [editBookingScope_eq hkey hvalid hknown] at hedit
  obtain ⟨_, hused⟩ | ⟨_, editedSeriesId, edits, _, hsteps, _, hresult⟩ := run_ok hedit
  · exact absurd hunused hused
  · exact ⟨base.db, seriesOf, plans, editedSeriesId, edits, hreseries,
      hreseries.plans_iff.mp hplanned, hnodup, hsteps, hresult⟩

theorem previews_ids
    (h : List.Forall₂ (fun p o => previewOccurrence call db p = .ok o) plans occurrences) :
    occurrences.map OccurrencePreview.bookingId = plans.map Prod.fst := by
  induction h with
  | nil => rfl
  | cons ho _ ih =>
    rw [List.map_cons, List.map_cons, ih]
    unfold previewOccurrence at ho
    split at ho
    · cases ho
    cases ho
    rfl

theorem preview_ok {newSeriesId : Option Nat} {editedSeriesId : Nat}
    (h : editScope store r true = (store', .ok ⟨newSeriesId, .preview editedSeriesId occurrences⟩)) :
    ∃ plans, r.Plans store.db (r.listed store.db) plans ∧
      List.Forall₂ (fun p o => previewOccurrence (r.call plans) store.db p = .ok o) plans
        occurrences := by
  obtain ⟨slot, pivot, seriesId, hfound⟩ | ⟨hrefused, _⟩ := found_or_refused store r
  swap
  · obtain ⟨e, he⟩ := hrefused true
    rw [he] at h
    cases h
  obtain ⟨plans, hacc⟩ := (preview_iff store r).mp ⟨_, congrArg Prod.snd h⟩
  have hplanned := hacc.planned
  rw [ScopeRequest.listed, hfound.rowsFrom_eq] at hacc
  obtain ⟨occurrences', happly, hoccurrences⟩ := hacc.preview hfound.ofPivot
  rw [hfound.preview_eq, happly] at h
  cases h
  exact ⟨plans, hplanned, hoccurrences⟩

theorem preview_lists (h : Accepted r store.db (r.listed store.db) plans) : ∃ seriesId occurrences,
      editScope store r true = (store, .ok ⟨none, .preview seriesId occurrences⟩) := by
  obtain ⟨slot, pivot, seriesId, hfound⟩ | ⟨_, hnone⟩ := found_or_refused store r
  · rw [ScopeRequest.listed, hfound.rowsFrom_eq] at h
    obtain ⟨occurrences, happly, _⟩ := h.preview hfound.ofPivot
    exact ⟨seriesId, occurrences, hfound.preview_eq.trans happly⟩
  · exact absurd (hnone _) h.nonempty

/-- The preview of a new request says what the commit does exactly when the two are about the same
occurrences, and these can be written, as soon as one of them would succeed. -/
theorem commitFollows_iff (hnew : NewRequest store r) :
    CommitFollows store r ↔
      (Accepts r store.db (r.listed store.db) ∨
          Accepts r store.db (r.followed store.db) ∧
            CanBeWritten r store.db (r.followed store.db) →
        r.followed store.db = r.listed store.db ∧ CanBeWritten r store.db (r.listed store.db)) := by
  have hpreview := preview_iff store r
  have hcommit := commit_iff hnew
  constructor
  · intro h hsome
    have hboth : (∃ response, (editScope store r true).2 = .ok response) ∧
        ∃ response, (editScope store r false).2 = .ok response := by
      rcases hsome with hlisted | hfollowed
      · exact ⟨hpreview.mpr hlisted, h.agrees.mp (hpreview.mpr hlisted)⟩
      · exact ⟨h.agrees.mpr (hcommit.mpr hfollowed), hcommit.mpr hfollowed⟩
    obtain ⟨_, hwritable⟩ := hcommit.mp hboth.2
    have hsame : r.followed store.db = r.listed store.db := by
      obtain ⟨response, hok⟩ := hboth.2
      obtain ⟨plans, hacc⟩ := hpreview.mp hboth.1
      obtain ⟨seriesId, occurrences, hlists⟩ := preview_lists hacc
      obtain ⟨_, hplans, hoccurrences⟩ := preview_ok hlists
      obtain ⟨⟨_, edits, hresult, hids⟩, _, _⟩ :=
        h.announced _ _ _ _ _ _ hlists (Prod.ext rfl hok)
      obtain ⟨_, _, plans', _, edits', _, hplans', _, hsteps, hresult'⟩ :=
        commit_ok hnew (Prod.ext rfl hok)
      rw [hresult, ScopeResult.committed.injEq, BookingResult.editedScope.injEq] at hresult'
      rw [hresult'.2, outs_of_steps hsteps, map_fst_plans hplans', previews_ids hoccurrences,
        map_fst_plans hplans] at hids
      exact hids
    rw [← hsame]
    exact ⟨rfl, hwritable⟩
  · intro h
    refine ⟨?_, ?_⟩
    · rw [hpreview, hcommit]
      constructor
      · intro hlisted
        obtain ⟨hsame, hwritable⟩ := h (.inl hlisted)
        rw [hsame]
        exact ⟨hlisted, hwritable⟩
      · intro hfollowed
        obtain ⟨hsame, _⟩ := h (.inr hfollowed)
        rw [← hsame]
        exact hfollowed.1
    · intro store₁ newSeriesId seriesId occurrences store' response hlists hok
      obtain ⟨hsame, _⟩ := h (.inl (hpreview.mp ⟨_, congrArg Prod.snd hlists⟩))
      obtain ⟨plans, hplans, hoccurrences⟩ := preview_ok hlists
      obtain ⟨base, seriesOf, plans', editedSeriesId, edits, hreseries, hplans', hnodup, hsteps,
        hresult⟩ := commit_ok hnew hok
      rw [hsame] at hplans' hnodup
      obtain rfl := plans_unique hplans hplans'
      have hids : occurrences.map OccurrencePreview.bookingId = plans.map Prod.fst :=
        previews_ids hoccurrences
      have hnodup' : (plans.map Prod.fst).Nodup := by
        rw [map_fst_plans hplans]
        exact hnodup
      obtain ⟨happlied, hothers⟩ := loop_applied hsteps hnodup'
      refine ⟨⟨editedSeriesId, edits, hresult, (outs_of_steps hsteps).trans hids.symm⟩, ?_, ?_⟩
      · intro o ho
        obtain ⟨p, hp, hpreviewed⟩ := forall₂_exists_left hoccurrences ho
        obtain ⟨id, _, hplan⟩ := forall₂_exists_left hplans hp
        obtain ⟨mid, mid', b, action, hview, hcheck, hwritten, hkept⟩ := happlied p hp
        exact editedAs_of_applied hplan hpreviewed hreseries hview hcheck hwritten hkept
      · intro id hid
        rw [hids] at hid
        exact untouched_of_same hreseries (hothers id hid)

/-! ## The claimed basis -/

section

variable {tables : ScopeTables} {previewedAt committedAt : Int}

def ScopeTables.basisAt (tables : ScopeTables) (r : ScopeRequest) (now : Int) : Int :=
  (claimProducerResolutionBasis tables.bases r.idempotencyKey now).2

def ScopeTables.claimed (tables : ScopeTables) (r : ScopeRequest) (now : Int) : ScopeTables :=
  { tables with bases := (claimProducerResolutionBasis tables.bases r.idempotencyKey now).1 }

theorem get?_claimed {bases : Table ResolutionBasis} {k : String} {now : Int}
    (h : bases.get? k = none) : (bases.put ⟨k, now⟩).get? k = some ⟨k, now⟩ := by
  have hget := Table.get?_put (t := bases) (r := (⟨k, now⟩ : ResolutionBasis)) h k
  exact hget.trans (if_pos rfl)

theorem claimed_eq_iff :
    tables.claimed r previewedAt = tables ↔ tables.bases.get? r.idempotencyKey ≠ none := by
  unfold ScopeTables.claimed claimProducerResolutionBasis
  cases hbasis : tables.bases.get? r.idempotencyKey with
  | some basis => simp
  | none =>
    refine iff_of_false (fun heq => ?_) (fun hne => hne rfl)
    have hbases := congrArg ScopeTables.bases heq
    have hget := @get?_claimed _ _ previewedAt hbasis
    rw [show tables.bases.put ⟨r.idempotencyKey, previewedAt⟩ = tables.bases from hbases] at hget
    exact Option.some_ne_none _ (hget.symm.trans hbasis)

/-- Whoever claims a key later gets the same basis. -/
theorem claim_again (tables : ScopeTables) (r : ScopeRequest) (previewedAt committedAt : Int) :
    (tables.claimed r previewedAt).claimed r committedAt = tables.claimed r previewedAt ∧
      (tables.claimed r previewedAt).basisAt r committedAt = tables.basisAt r previewedAt := by
  unfold ScopeTables.claimed ScopeTables.basisAt claimProducerResolutionBasis
  cases hbasis : tables.bases.get? r.idempotencyKey with
  | some basis => simp [hbasis]
  | none =>
    simp [get?_claimed hbasis]

theorem claimAndEditScope_eq (htimes : r.timeShift = false) (now : Int) (dryRun : Bool) :
    claimAndEditScope tables r now dryRun =
      ({ tables.claimed r now with
          store := (editScope tables.store (r.resolvedAt (tables.basisAt r now)) dryRun).1 },
        (editScope tables.store (r.resolvedAt (tables.basisAt r now)) dryRun).2) := by
  unfold claimAndEditScope
  rw [htimes, if_neg Bool.false_ne_true]
  rfl

theorem preview_claims (htimes : r.timeShift = false) :
    claimAndEditScope tables r previewedAt true = (tables.claimed r previewedAt,
      (editScope tables.store (r.resolvedAt (tables.basisAt r previewedAt)) true).2) := by
  rw [claimAndEditScope_eq htimes, preview_store]
  rfl

theorem commit_after_claim (htimes : r.timeShift = false) :
    claimAndEditScope (tables.claimed r previewedAt) r committedAt false =
      ({ tables.claimed r previewedAt with
          store := (editScope tables.store
            (r.resolvedAt (tables.basisAt r previewedAt)) false).1 },
        (editScope tables.store (r.resolvedAt (tables.basisAt r previewedAt)) false).2) := by
  obtain ⟨hclaimed, hbasis⟩ := claim_again tables r previewedAt committedAt
  rw [claimAndEditScope_eq htimes, hclaimed, hbasis]
  rfl

theorem previewPredicts_split (htimes : r.timeShift = false) :
    PreviewPredicts tables r previewedAt committedAt ↔
      tables.bases.get? r.idempotencyKey ≠ none ∧
        CommitFollows tables.store (r.resolvedAt (tables.basisAt r previewedAt)) := by
  have hpreview := @preview_claims r tables previewedAt htimes
  have hcommit := @commit_after_claim r tables previewedAt committedAt htimes
  rw [← @claimed_eq_iff r tables previewedAt]
  constructor
  · rintro ⟨hreads, hagrees, hannounced⟩
    rw [hpreview] at hreads hagrees
    rw [hcommit] at hagrees
    refine ⟨hreads, hagrees, ?_⟩
    intro store₁ newSeriesId seriesId occurrences store' response hlists hok
    rw [hpreview, hlists] at hannounced
    exact hannounced _ _ _ _
      { tables.claimed r previewedAt with store := store' } response rfl (by rw [hcommit, hok])
  · rintro ⟨hreads, hagrees, hannounced⟩
    refine ⟨by rw [hpreview]; exact hreads, by rw [hpreview, hcommit]; exact hagrees, ?_⟩
    intro previewed newSeriesId seriesId occurrences committed response hlists hok
    rw [hpreview, Prod.mk.injEq] at hlists
    rw [← hlists.1, hcommit, Prod.mk.injEq] at hok
    obtain ⟨rfl, hanswer⟩ := hok
    exact hannounced _ _ _ _ _ _ (Prod.ext rfl hlists.2) (Prod.ext rfl hanswer)

theorem newRequest_resolved (hnew : NewRequest store r) (basisAt : Int) :
    NewRequest store (r.resolvedAt basisAt) :=
  ⟨hnew.editKey, hnew.splitKey, hnew.silent, hnew.newSeries, hnew.newApprovals, hnew.distinct,
    hnew.hasSeries⟩

/-- The preview of a new request says what the commit does exactly when its basis is claimed already,
the two are about the same occurrences, and these can be written, as soon as one of them would
succeed. -/
theorem previewPredicts_iff (hnew : NewRequest tables.store r) :
    PreviewPredicts tables r previewedAt committedAt ↔
      (r.timeShift = true ∨ tables.bases.get? r.idempotencyKey ≠ none) ∧
        (Accepts (r.resolvedAt (tables.basisAt r previewedAt)) tables.store.db
              (r.listed tables.store.db) ∨
            Accepts (r.resolvedAt (tables.basisAt r previewedAt)) tables.store.db
                (r.followed tables.store.db) ∧
              CanBeWritten (r.resolvedAt (tables.basisAt r previewedAt)) tables.store.db
                (r.followed tables.store.db) →
          r.followed tables.store.db = r.listed tables.store.db ∧
            CanBeWritten (r.resolvedAt (tables.basisAt r previewedAt)) tables.store.db
              (r.listed tables.store.db)) := by
  cases htimes : r.timeShift with
  | true =>
    have hrefused : ∀ tables now dryRun, claimAndEditScope tables r now dryRun =
        (tables, .error .timeShiftNotSupported) := fun tables now dryRun => if_pos htimes
    have hnone : ∀ startAt, r.rowsFrom tables.store.db startAt = [] := fun _ => if_pos htimes
    refine iff_of_true ⟨by rw [hrefused], ?_, ?_⟩ ⟨.inl rfl, fun h => ?_⟩
    · simp only [hrefused]
    · intro previewed newSeriesId seriesId occurrences committed response hlists
      rw [hrefused] at hlists
      cases hlists
    · obtain ⟨plans, hacc⟩ | ⟨⟨plans, hacc⟩, _⟩ := h
      · exact absurd (hnone _) hacc.nonempty
      · exact absurd (hnone _) hacc.nonempty
  | false =>
    have hresolved := newRequest_resolved hnew (tables.basisAt r previewedAt)
    rw [previewPredicts_split htimes, commitFollows_iff hresolved, or_iff_right Bool.false_ne_true]
    rfl

end

end

/-! ## A room that is taken -/

def meetInLounge : ScopeRequest :=
  { meetIn openRooms .series 200 with newApprovalId := Nat.pair }

/-- On its second day somebody else is in room 200. -/
def takenLounge : BookingStore :=
  { dailyMeeting with
    db :=
      { bookings := ⟨[meetingOn 1, meetingOn 2, meetingOn 3,
          { meetingOn 2 with id := 4, locationId := 200, recurrenceSeriesId := none }], by decide⟩
        slots := ⟨[meetingSlot 1, meetingSlot 2, meetingSlot 3,
          { meetingSlot 2 with id := 4, bookingId := 4, spaceId := 200 }], by decide⟩
        approvals := Table.empty } }

theorem newRequest_lounge {store : BookingStore} (hoperations : store.operations = Table.empty)
    (happrovals : store.db.approvals = Table.empty) (houtbox : store.db.outbox = Table.empty)
    (hseries : store.series = dailyMeeting.series)
    (hfirst : ∀ b ∈ store.db.bookings.rows,
      b.recurrenceSeriesId = none ∨ b.recurrenceSeriesId = some 1) :
    NewRequest store meetInLounge where
  editKey := by rw [hoperations]; rfl
  splitKey := by rw [hoperations]; rfl
  silent := by
    rw [houtbox]
    intro e he
    cases he
  newSeries := by
    rw [hseries]
    decide
  newApprovals := by
    intro id place
    rw [happrovals]
    rfl
  distinct := fun _ _ _ _ h => Nat.pair_eq_pair.mp h
  hasSeries := by
    intro b hb seriesId hof
    rw [hseries]
    rcases hfirst b hb with hnone | hone
    · rw [hnone] at hof
      cases hof
    · rw [hone] at hof
      cases hof
      decide

/-- The tables after an earlier preview of the request. -/
def claimedLounge (store : BookingStore) : ScopeTables where
  store := store
  bases := Table.empty.put { idempotencyKey := meetInLounge.idempotencyKey, basisAt := 0 }

/-- The preview promises the move, and the commit is refused. -/
theorem takenRoom_previewed :
    ¬∀ (tables : ScopeTables) (r : ScopeRequest) (previewedAt committedAt : Int),
      NewRequest tables.store r → PreviewPredicts tables r previewedAt committedAt := by
  intro hlaw
  have hnew : NewRequest takenLounge meetInLounge :=
    newRequest_lounge rfl rfl rfl rfl (by decide)
  have hpromised : (claimAndEditScope (claimedLounge takenLounge) meetInLounge 0
      true).2.toOption.isSome = true := by decide +kernel
  have hrefused : (claimAndEditScope (claimAndEditScope (claimedLounge takenLounge) meetInLounge 0
      true).1 meetInLounge 1 false).2 = .error (.command (.edit .slotOverlap)) := by decide +kernel
  have hagrees := (hlaw (claimedLounge takenLounge) meetInLounge 0 1 hnew).agrees
  cases hpreview : (claimAndEditScope (claimedLounge takenLounge) meetInLounge 0 true).2 with
  | error e =>
    rw [hpreview] at hpromised
    cases hpromised
  | ok response =>
    obtain ⟨response', hok⟩ := hagrees.mp ⟨response, hpreview⟩
    rw [hrefused] at hok
    cases hok

/-- In a free room the meetings go where the second preview says. -/
theorem freeRoom_predicted : PreviewPredicts (claimedLounge dailyMeeting) meetInLounge 0 1 := by
  have hnew : NewRequest dailyMeeting meetInLounge :=
    newRequest_lounge rfl rfl rfl rfl (by decide)
  have hok : (editScope dailyMeeting (meetInLounge.resolvedAt 0) false).2.toOption.isSome = true := by
    decide +kernel
  have hsame : meetInLounge.followed dailyMeeting.db = meetInLounge.listed dailyMeeting.db := by
    decide +kernel
  have hbasis : (claimedLounge dailyMeeting).basisAt meetInLounge 0 = 0 := by decide +kernel
  cases hcommit : (editScope dailyMeeting (meetInLounge.resolvedAt 0) false).2 with
  | error e =>
    rw [hcommit] at hok
    cases hok
  | ok response =>
    have hresolved : NewRequest dailyMeeting (meetInLounge.resolvedAt 0) :=
      newRequest_resolved hnew 0
    obtain ⟨_, hwritable⟩ := (commit_iff hresolved).mp ⟨response, hcommit⟩
    refine (@previewPredicts_iff meetInLounge (claimedLounge dailyMeeting) 0 1 hnew).mpr
      ⟨.inr (by decide +kernel), fun _ => ⟨hsame, ?_⟩⟩
    rw [hbasis]
    exact hsame ▸ hwritable

end Prequest.Booking
