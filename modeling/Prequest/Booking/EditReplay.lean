import Prequest.Booking.Neighbours
import Prequest.Booking.ScopeFailure
import Prequest.Booking.SlotCover

/-!
# Edits that are sent again

A client that does not hear the answer of an edit sends it again under the same
request id. The edit is planned again, from the tables it has already changed,
and the database answers from its record when the second plan is the first.

* `replaySafe_iff`: the law holds exactly under these conditions.
* `repointedOrder_mismatch`: lunch in the room that a slot leaves.
-/

namespace Prequest.Booking

open Prequest.Lib Prequest.Approval Prequest.Command

/-! ## The operations -/

def EditTarget.linkedRowMode : EditTarget → LinkedRowMode
  | .one => .uniformBooking
  | .slot _ => .singleSlot

inductive SlotEditError where
  | invalidWindow
  | slotNotFound
  | plan (e : SlotPlanError)
  | command (e : EditError)
  deriving DecidableEq, Repr

/-- `editOne` and `editSlot`, with the plan made from the tables. -/
def editService (planEnv : EditPlanEnv) (store : BookingStore) (r : EditRequest) :
    Except SlotEditError BookingStore :=
  if r.invalidWindow then .error .invalidWindow
  else match r.slot? store.db with
    | none => .error .slotNotFound
    | some slot =>
        if r.isNoop slot then .ok store
        else match buildSingleSlotPlan planEnv store.db r.bookingId slot.id r.planPatch
            r.resolutionAt r.target.linkedRowMode with
          | .error e => .error (.plan e)
          | .ok plan =>
              match editBooking store (r.call plan) with
              | .error e => .error (.command e)
              | .ok (store, _) => .ok store

/-- An edit, of a booking or of a series. -/
inductive EditOperation where
  | slot (planEnv : EditPlanEnv) (r : EditRequest)
  | scope (r : ScopeRequest)

inductive EditOperationError where
  | slot (e : SlotEditError)
  | scope (e : ScopeRequestError)
  deriving DecidableEq, Repr

/-- The edit, and what it leaves when it is answered. -/
def editOperation (store : BookingStore) : EditOperation → Except EditOperationError BookingStore
  | .slot planEnv r =>
      match editService planEnv store r with
      | .error e => .error (.slot e)
      | .ok store => .ok store
  | .scope r =>
      match editScope store r false with
      | (_, .error e) => .error (.scope e)
      | (store, .ok _) => .ok store

/-! ## The law -/

/-- Sent again, the edit is answered, and changes no row. -/
def ReplaySafe (store' : BookingStore) (op : EditOperation) : Prop :=
  ∃ store'', editOperation store' op = .ok store'' ∧ SameTables store' store''

/-- An edit of a slot that was answered from its record, whose repetition has nothing to change, or
that re-points no order. -/
def StableSlotEdit (store : BookingStore) (r : EditRequest) : Prop :=
  store.operations.get? r.idempotencyKey ≠ none ∨
    (r.target = .one ∧ r.hasMetaKey = false ∧ r.patch.restated = false) ∨
      ∀ slot, r.slot? store.db = some slot →
        KeepsDelivery store.db r.bookingId (r.planPatch.move slot)

/-- The occurrences that a commit edits: of the series, or of the one that it splits off. -/
def ScopeRequest.targets (r : ScopeRequest) (store : BookingStore) : List Nat :=
  match r.scope with
  | .series =>
      match (store.db.bookings.get? r.bookingId).bind BookingRow.recurrenceSeriesId with
      | none => []
      | some seriesId => scopeRows store.db seriesId none
  | .thisAndFollowing =>
      match splitRecurrenceSeries store r.splitCall with
      | .ok (split, .split newSeriesId _ _ _) => scopeRows split.db newSeriesId none
      | _ => []

/-- An occurrence whose orders stay and that no other occurrence comes to touch. -/
structure StableOccurrence (db : BookingDb) (r : ScopeRequest) (ids : List Nat)
    (requesterPersonId : Nat) (slot : SlotRow) : Prop where
  delivery : KeepsDelivery db slot.bookingId (r.patch.slotPatch.move slot)
  buffers : ∀ room, r.patch.spaceId = some room →
    KeepsSide db (EditedBy db ids) room requesterPersonId slot.id
        (r.planEnv.space room).setupBufferMinutes (endsAt slot.startAt) ∧
      KeepsSide db (EditedBy db ids) room requesterPersonId slot.id
        (r.planEnv.space room).teardownBufferMinutes (startsAt slot.endAt)

def StableAt (db : BookingDb) (r : ScopeRequest) (ids : List Nat) (id : Nat) : Prop :=
  ∀ slot requesterPersonId, primarySlot db id = some slot →
    requesterOf db slot = some requesterPersonId → StableOccurrence db r ids requesterPersonId slot

/-- An edit of a series that was answered from its record, or all of whose occurrences are stable. -/
def StableScopeEdit (store : BookingStore) (r : ScopeRequest) : Prop :=
  store.operations.get? r.idempotencyKey ≠ none ∨
    ∀ id ∈ r.targets store, StableAt store.db r (r.targets store) id

def StableEdit (store : BookingStore) : EditOperation → Prop
  | .slot _ r => StableSlotEdit store r
  | .scope r => StableScopeEdit store r

/-! ## One slot -/

variable {action : EditAction}

section

variable {planEnv : EditPlanEnv} {store store' : BookingStore} {r : EditRequest}

theorem planPatch_keepsOverride (h : ¬(r.target = .one ∧ r.hasMetaKey = false ∧
    r.patch.restated = false)) : r.planPatch.KeepsOverride := by
  unfold EditRequest.planPatch EditPatch.KeepsOverride
  cases htarget : r.target with
  | slot _ => exact .inl rfl
  | one =>
    refine .inr ?_
    by_contra hnone
    simp only [not_or, Bool.not_eq_true] at hnone
    obtain ⟨hrestated, hcount, hpersons, hhost⟩ := hnone
    exact h ⟨htarget, by simp [EditRequest.hasMetaKey, hcount, hpersons, hhost], hrestated⟩

variable {call : EditCall} {result : BookingResult}

theorem editBooking_eq_gated (h : editBooking store call = .ok (store', result)) :
    editBooking.gated store call = .ok (store', result) ∧
      ∀ (s : BookingStore) (plan : EditPlan), editBooking s { call with plan := plan } =
        editBooking.gated s { call with plan := plan } := by
  unfold editBooking at h ⊢
  split at h
  · cases h
  rename_i hkey
  cases hactor : call.actorUserId with
  | none =>
    rw [hactor] at h
    exact ⟨h, fun s plan => by simp only [if_neg hkey]⟩
  | some authUid =>
    simp only [hactor] at h
    split at h
    · cases h
    rename_i hknown
    exact ⟨h, fun s plan => by simp only [if_neg hkey, if_neg hknown]⟩

theorem gated_ok (h : editBooking.gated store call = .ok (store', result)) :
    (store' = store ∧ store.operations.get? call.idempotencyKey ≠ none) ∨
      store.operations.get? call.idempotencyKey = none ∧
        store'.operations.get? call.idempotencyKey =
          some ⟨call.idempotencyKey, editPayload call.plan, .success result⟩ ∧
        ∃ b action, store.db.bookings.get? call.bookingId = some b ∧
          AppliedEdit call store.db b action store'.db := by
  unfold editBooking.gated at h
  split at h
  · cases h
  · rename_i hgate
    cases h
    refine .inl ⟨rfl, ?_⟩
    rw [gate_eq_cached.mp hgate]
    exact Option.some_ne_none _
  · rename_i hgate
    split at h
    · cases h
    rename_i hfresh
    cases h
    rw [editFresh_eq] at hfresh
    split at hfresh
    · cases hfresh
    rename_i b action hcheck
    have hunused := gate_eq_proceed.mp hgate
    exact .inr ⟨hunused, by rw [get?_finish_begin hunused, if_pos rfl], b, action,
      (checkEdit_ok hcheck).1, applied_of_applyEdit hfresh⟩

/-- A call under a key that is recorded is answered when its plan is the recorded one, but for what
is read of the approvals. -/
theorem gated_recorded {plan : EditPlan} (h : store.operations.get? call.idempotencyKey =
      some ⟨call.idempotencyKey, editPayload plan, .success result⟩) :
    editBooking.gated store call =
      if call.plan.hashed = plan.hashed then .ok (store, result)
      else .error (.gate .payloadMismatch) := by
  unfold editBooking.gated
  rw [gate_of_success h]
  by_cases hsame : call.plan.hashed = plan.hashed
  · have hpayload : editPayload call.plan = editPayload plan := congrArg BookingPayload.edit hsame
    rw [if_pos hsame, if_pos hpayload]
  · have hpayload : editPayload call.plan ≠ editPayload plan := fun heq =>
      hsame (BookingPayload.edit.inj heq)
    rw [if_neg hsame, if_neg hpayload]

variable {slot : SlotRow} {booking booking' : BookingRow}

theorem slot?_retried {slot' : SlotRow} {chain : Option ApprovalConfig}
    (happlied : AppliedEdit call store.db booking action store'.db)
    (hplan : call.plan = slotPlan (planEnv.reads store.db booking slot r.planPatch r.resolutionAt)
      chain booking slot r.planPatch r.resolutionAt)
    (hslot : r.slot? store.db = some slot)
    (h : Retried store.db store'.db booking slot r.planPatch booking' slot') :
    r.slot? store'.db = some slot' := by
  obtain ⟨hget, hof⟩ := slot_of_slot? hslot
  have hslotId : slot'.id = slot.id := (Table.get?_eq_some.mp h.hasSlot).2
  cases htarget : r.target with
  | slot slotId =>
    have hid : slot.id = slotId := by
      simp only [EditRequest.slot?, htarget] at hslot
      exact (Table.get?_eq_some.mp (Option.filter_eq_some_iff.mp hslot).1).2
    simp only [EditRequest.slot?, htarget]
    rw [← hid, h.hasSlot]
    exact Option.filter_eq_some_iff.mpr ⟨rfl, by simp [h.ofBooking, hof]⟩
  | one =>
    obtain ⟨p, _, _, _, _, _, _, hslots⟩ := slots_of_slotPlan hplan happlied.slots
    have hkept : ∀ s : SlotRow, (Table.updated (patchesSlot booking.id p)
        (applySlotPatch p) s).bookingId = s.bookingId := by
      intro s
      unfold Table.updated
      split <;> rfl
    simp only [EditRequest.slot?, htarget, primarySlot] at hslot ⊢
    have hfind : store'.db.slots.rows.find? (fun s => s.bookingId == r.bookingId) =
        some (Table.updated (patchesSlot booking.id p) (applySlotPatch p) slot) := by
      rw [hslots, show (store.db.slots.update (patchesSlot booking.id p) (applySlotPatch p)).rows =
        store.db.slots.rows.map (Table.updated (patchesSlot booking.id p) (applySlotPatch p)) from
          rfl, List.find?_map]
      simp only [Function.comp_def, hkept, hslot, Option.map_some]
    have hsame : store'.db.slots.get? slot.id =
        some (Table.updated (patchesSlot booking.id p) (applySlotPatch p) slot) := by
      have hid : (Table.updated (patchesSlot booking.id p) (applySlotPatch p) slot).id = slot.id :=
        Table.key_updated _ _ slot
      rw [← hid]
      exact Table.get?_of_mem (List.mem_of_find?_eq_some hfind)
    rw [h.hasSlot] at hsame
    rw [hfind, Option.some.inj hsame]

theorem isNoop_retried {slot' : SlotRow}
    (h : Retried store.db store'.db booking slot r.planPatch booking' slot') :
    r.isNoop slot' = true ↔ r.target = .one ∧ r.hasMetaKey = false ∧ r.patch.restated = false := by
  obtain ⟨hspaceId, hstartAt, hendAt⟩ := planPatch_geometry r
  have hspace := h.spaceId
  have hstart := h.startAt
  have hend := h.endAt
  rw [hspaceId] at hspace
  rw [hstartAt] at hstart
  rw [hendAt] at hend
  have hgeometry : r.hasGeometryChange slot' = r.patch.restated := by
    unfold EditRequest.hasGeometryChange
    rw [hspace, hstart, hend]
    cases r.patch.spaceId <;> cases r.patch.startAt <;> cases r.patch.endAt <;> simp
  unfold EditRequest.isNoop
  rw [hgeometry]
  simp only [Bool.and_eq_true, beq_iff_eq, Bool.not_eq_true']
  constructor
  · rintro ⟨⟨htarget, hrestated⟩, hmeta⟩
    exact ⟨htarget, hmeta, hrestated⟩
  · rintro ⟨htarget, hmeta, hrestated⟩
    exact ⟨⟨htarget, hrestated⟩, hmeta⟩

theorem isNoop_cases (h : r.isNoop slot = true) :
    r.target = .one ∧ r.hasMetaKey = false ∧ r.patch.restated = false := by
  simp only [EditRequest.isNoop, EditRequest.hasGeometryChange, Bool.and_eq_true, beq_iff_eq,
    Bool.not_eq_true', Bool.or_eq_false_iff] at h
  exact ⟨h.1.1, h.2, h.1.2.2⟩

theorem slotReplay_iff (h : editService planEnv store r = .ok store') :
    (∃ store'', editService planEnv store' r = .ok store'' ∧ SameTables store' store'') ↔
      StableSlotEdit store r := by
  have hrefl : SameTables store' store' := ⟨rfl, rfl⟩
  have hagain := h
  unfold editService at h
  split at h
  · cases h
  rename_i hwindow
  split at h
  · cases h
  rename_i slot hslot
  split at h
  · rename_i hnoop
    cases h
    exact iff_of_true ⟨store, hagain, hrefl⟩ (.inr (.inl (isNoop_cases hnoop)))
  split at h
  · cases h
  rename_i plan hplan
  split at h
  · cases h
  rename_i result hedit
  cases h
  obtain ⟨hgated, hfurther⟩ := editBooking_eq_gated hedit
  obtain ⟨rfl, hrecorded⟩ | ⟨hunused, hrecorded, booking, action, hbooking, happlied⟩ :=
    gated_ok hgated
  · exact iff_of_true ⟨store', hagain, hrefl⟩ (.inl hrecorded)
  have hid : booking.id = r.bookingId := (Table.get?_eq_some.mp hbooking).2
  obtain ⟨hget, hof⟩ := slot_of_slot? hslot
  have hfound : store.db.bookings.get? booking.id = some booking := by
    rw [hid]
    exact hbooking
  rw [← hid] at hplan hof
  obtain ⟨_, hassembled, _⟩ := buildSingleSlotPlan_ok hfound hget hplan
  have heq := ((assembleEditPlan_iff hfound hget hof).mp hassembled).2
  obtain ⟨booking', slot', hretried⟩ := happlied.retried hfound hget hof (.refl _ _) heq
  have hslot' := slot?_retried happlied heq hslot hretried
  by_cases hnothing : r.target = .one ∧ r.hasMetaKey = false ∧ r.patch.restated = false
  · refine iff_of_true ⟨store', ?_, hrefl⟩ (.inr (.inl hnothing))
    unfold editService
    rw [if_neg hwindow, hslot']
    exact if_pos ((isNoop_retried hretried).mpr hnothing)
  obtain ⟨plan', hplan', hsame⟩ := retriedPlan_iff hretried hfound hget
    (planPatch_keepsOverride hnothing) hplan
  have hslotId : slot'.id = slot.id := (Table.get?_eq_some.mp hretried.hasSlot).2
  rw [buffersAt_applied happlied heq, eq_self, true_and, hid] at hsame
  have hstable : StableSlotEdit store r ↔ KeepsDelivery store.db r.bookingId
      (r.planPatch.move slot) := by
    constructor
    · rintro (hused | hnoop | hkeeps)
      · exact absurd hunused hused
      · exact absurd hnoop hnothing
      · exact hkeeps slot hslot
    · intro hkeeps
      refine .inr (.inr ?_)
      intro s hs
      rw [hslot] at hs
      cases hs
      exact hkeeps
  have hretry : editService planEnv store' r =
      if plan'.hashed = plan.hashed then .ok store'
      else .error (.command (.gate .payloadMismatch)) := by
    have hanswer : editBooking store' (r.call plan') =
        if plan'.hashed = plan.hashed then .ok (store', result)
        else .error (.gate .payloadMismatch) :=
      (hfurther store' plan').trans (gated_recorded hrecorded)
    unfold editService
    rw [if_neg hwindow, hslot']
    simp only
    rw [if_neg fun hnoop => hnothing ((isNoop_retried hretried).mp hnoop), hslotId, ← hid, hplan']
    simp only
    rw [hanswer]
    split_ifs <;> rfl
  rw [hstable, ← hsame, hretry]
  constructor
  · rintro ⟨store'', hok, _⟩
    by_contra hdiffers
    rw [if_neg hdiffers] at hok
    cases hok
  · intro heq
    exact ⟨store', if_pos heq, hrefl⟩

end

/-! ## A series -/

section

variable {store store' : BookingStore} {db db' : BookingDb} {r : ScopeRequest}

/-- The plans that the function takes. -/
structure ValidPlans (plans : List (Nat × EditPlan)) : Prop where
  nonempty : plans ≠ []
  few : plans.length ≤ maxScopeOccurrences
  noOverride : ∀ p ∈ plans, p.2.booking.recurrenceOverridden = none

theorem ScopeRequest.idempotencyKey_ne_empty (r : ScopeRequest) : r.idempotencyKey ≠ "" := by
  unfold ScopeRequest.idempotencyKey
  intro h
  have hlength := congrArg String.length h
  simp only [String.length_append] at hlength
  rw [show "booking:edit:scope:".length = 19 from rfl, show "".length = 0 from rfl] at hlength
  omega

variable {plans : List (Nat × EditPlan)}

theorem noOverride_iff : (plans.any fun p => p.2.booking.recurrenceOverridden.isSome) = false ↔
      ∀ p ∈ plans, p.2.booking.recurrenceOverridden = none := by
  simp [List.any_eq_false]

variable {call : ScopeCall}

theorem editBookingScope_eq (hkey : call.idempotencyKey ≠ "")
    (hvalid : ValidPlans call.plans) (hknown : KnownActor call.env.userOf call.actorUserId)
    (store : BookingStore) (dryRun : Bool) :
    editBookingScope store call dryRun = editBookingScope.run store call dryRun := by
  unfold editBookingScope
  rw [if_neg hkey, if_neg hvalid.nonempty, if_neg (Nat.not_lt_of_le hvalid.few),
    noOverride_iff.mpr hvalid.noOverride, if_neg Bool.false_ne_true]
  cases hactor : call.actorUserId with
  | none => rfl
  | some authUid =>
    have hsome := hknown authUid hactor
    simp only
    rw [if_neg]
    rw [Option.isNone_iff_eq_none, ← ne_eq, Option.ne_none_iff_isSome]
    exact hsome

theorem editBookingScope_ok {dryRun : Bool} {x : BookingStore × ScopeResult}
    (h : editBookingScope store call dryRun = .ok x) : call.idempotencyKey ≠ "" ∧
      ValidPlans call.plans ∧ KnownActor call.env.userOf call.actorUserId := by
  unfold editBookingScope at h
  split at h
  · cases h
  rename_i hkey
  split at h
  · cases h
  rename_i hnonempty
  split at h
  · cases h
  rename_i hfew
  split at h
  · cases h
  rename_i hnone
  refine ⟨hkey, ⟨hnonempty, Nat.le_of_not_lt hfew, noOverride_iff.mp (Bool.eq_false_iff.mpr hnone)⟩,
    ?_⟩
  cases hactor : call.actorUserId with
  | none => exact knownActor_none
  | some authUid =>
    simp only [hactor] at h
    split at h
    · cases h
    rename_i hknown
    exact knownActor_some hknown

theorem run_ok {result : ScopeResult}
    (h : editBookingScope.run store call false = .ok (store', result)) :
    (store' = store ∧ store.operations.get? call.idempotencyKey ≠ none) ∨
      store.operations.get? call.idempotencyKey = none ∧
        ∃ seriesId perOccurrence, scopeSeries call store.db = .ok seriesId ∧
          Steps (commitOccurrence call) store.db call.plans store'.db perOccurrence ∧
            store' = { store with
              db := store'.db
              operations := finish (begin store.operations call.idempotencyKey
                (editScopePayload call.plans)) call.idempotencyKey
                  (.editedScope seriesId perOccurrence) } ∧
              result = .committed (.editedScope seriesId perOccurrence) := by
  unfold editBookingScope.run at h
  rw [if_neg Bool.false_ne_true] at h
  split at h
  · cases h
  · rename_i hgate
    cases h
    refine .inl ⟨rfl, ?_⟩
    rw [gate_eq_cached.mp hgate]
    exact Option.some_ne_none _
  · rename_i hgate
    refine .inr ⟨gate_eq_proceed.mp hgate, ?_⟩
    split at h
    · cases h
    rename_i hcommit
    cases h
    unfold commitScope at hcommit
    split at hcommit
    · cases hcommit
    rename_i seriesId hseries
    split at hcommit
    · cases hcommit
    rename_i hloop
    cases hcommit
    exact ⟨seriesId, _, hseries, loop_eq_ok.mp hloop, rfl, rfl⟩

variable {env : EditPlanEnv} {seriesId : Nat} {patch : ScopePatch} {resolutionAt : Int}
  {startFrom : Option Int}

theorem assembleScopeEditPlan_ok {bookingId : Nat}
    (h : assembleScopeEditPlan env db bookingId seriesId patch resolutionAt startFrom = .ok plans) :
    (∃ pivot, db.bookings.get? bookingId = some pivot ∧ pivot.recurrenceSeriesId = some seriesId) ∧
      scopeRows db seriesId startFrom ≠ [] ∧
        (scopeRows db seriesId startFrom).length ≤ maxScopeOccurrences ∧
          List.Forall₂ (fun id p => planOccurrence env db patch resolutionAt id = .ok p)
            (scopeRows db seriesId startFrom) plans := by
  unfold assembleScopeEditPlan at h
  split at h
  · cases h
  rename_i pivot hpivot
  split at h
  · cases h
  rename_i pivotSeries hseries
  split at h
  · cases h
  rename_i hsame
  rw [not_not] at hsame
  subst hsame
  simp only at h
  split at h
  · cases h
  rename_i hnonempty
  split at h
  · cases h
  rename_i hfew
  exact ⟨⟨pivot, hpivot, hseries⟩, hnonempty, Nat.le_of_not_lt hfew, mapM_eq_ok.mp h⟩

variable {rows : List Nat} {result : BookingResult}

theorem assembleScopeEditPlan_of {bookingId : Nat}
    (hseries : (db.bookings.get? bookingId).bind BookingRow.recurrenceSeriesId = some seriesId)
    (hrows : scopeRows db seriesId startFrom = rows) (hnonempty : rows ≠ [])
    (hfew : rows.length ≤ maxScopeOccurrences)
    (hplans : List.Forall₂ (fun id p => planOccurrence env db patch resolutionAt id = .ok p) rows
      plans) :
    assembleScopeEditPlan env db bookingId seriesId patch resolutionAt startFrom = .ok plans := by
  obtain ⟨pivot, hpivot, hseries⟩ := Option.bind_eq_some_iff.mp hseries
  unfold assembleScopeEditPlan
  simp only [hpivot, hseries, hrows]
  rw [if_neg (not_not_intro rfl), if_neg hnonempty, if_neg (Nat.not_lt_of_le hfew)]
  exact mapM_eq_ok.mpr hplans

theorem scopeRows_applied {call : EditCall} {b : BookingRow}
    (h : AppliedEdit call db b action db') (hb : b ∈ db.bookings.rows)
    (hnotCancelled : b.status ≠ .cancelled) (seriesId : Nat) :
    scopeRows db' seriesId none = scopeRows db seriesId none := by
  have hstatus : action.statusTarget.getD b.status ≠ .cancelled := by
    cases action with
    | noop => exact hnotCancelled
    | insert => exact nofun
    | expire => exact nofun
    | expireAndInsert => exact nofun
  unfold scopeRows
  rw [h.bookings]
  generalize hu : Table.updated (fun r : BookingRow => r.id == b.id)
    ⟨editedBooking call.plan.booking (action.statusTarget.getD b.status) call.now, fun _ => rfl⟩ = u
  rw [show (db.bookings.update (fun r => r.id == b.id) ⟨editedBooking call.plan.booking
      (action.statusTarget.getD b.status) call.now, fun _ => rfl⟩).rows = db.bookings.rows.map u by
    rw [← hu]
    rfl, List.filter_map, List.map_map]
  have hid : BookingRow.id ∘ u = BookingRow.id := by
    funext x
    rw [← hu]
    exact Table.key_updated _ _ x
  have hin : db.bookings.rows.filter (inScope seriesId none ∘ u) =
      db.bookings.rows.filter (inScope seriesId none) := by
    refine List.filter_congr fun x hx => ?_
    rw [Function.comp_apply, ← hu]
    by_cases hsame : x.id = b.id
    · obtain rfl := db.bookings.eq_of_key_eq hx hb hsame
      rw [Table.updated_of_true (by rw [beq_self_eq_true])]
      show (x.recurrenceSeriesId == some seriesId &&
        action.statusTarget.getD x.status != .cancelled && _) = _
      unfold inScope
      rw [bne_iff_ne.mpr hstatus, bne_iff_ne.mpr hnotCancelled]
      rfl
    · rw [Table.updated_of_false (by rw [beq_eq_false_iff_ne]; exact hsame)]
  rw [hid, hin]

theorem seriesOf_applied {call : EditCall} {b : BookingRow} (h : AppliedEdit call db b action db')
    (bookingId : Nat) :
    (db'.bookings.get? bookingId).bind BookingRow.recurrenceSeriesId =
      (db.bookings.get? bookingId).bind BookingRow.recurrenceSeriesId := by
  rw [h.bookings, Table.get?_update]
  cases db.bookings.get? bookingId with
  | none => rfl
  | some x =>
    rw [Option.map_some, Option.bind_some, Option.bind_some]
    unfold Table.updated
    split <;> rfl

structure SeriesAfter (r : ScopeRequest) (db db' : BookingDb) (plans : List (Nat × EditPlan)) :
    Prop where
  retried : ∀ p ∈ plans, ∀ booking slot,
    Planned r.planEnv db r.patch r.resolutionAt p booking slot →
      ∃ booking' slot', Retried db db' booking slot r.patch.slotPatch booking' slot'
  rooms : List.Forall₂ (MovedTo r.patch.spaceId (EditedBy db (plans.map Prod.fst))) db.slots.rows
    db'.slots.rows
  requesters : ∀ k, requesterOf db' k = requesterOf db k
  series : ∀ bookingId, (db'.bookings.get? bookingId).bind BookingRow.recurrenceSeriesId =
    (db.bookings.get? bookingId).bind BookingRow.recurrenceSeriesId
  scope : ∀ seriesId, scopeRows db' seriesId none = scopeRows db seriesId none

theorem seriesAfter_of_steps
    {outs : List OccurrenceEdit} (hsteps : Steps (commitOccurrence call) db plans db' outs)
    (hnodup : (plans.map Prod.fst).Nodup)
    (hplanned : ∀ p ∈ plans, ∃ booking slot,
      Planned r.planEnv db r.patch r.resolutionAt p booking slot) : SeriesAfter r db db' plans := by
  obtain ⟨hrooms, hrequesters⟩ := loop_rooms hsteps hplanned
    (List.forall₂_same.mpr fun k _ => MovedTo.refl r.patch.spaceId k) fun k => rfl
  refine ⟨fun p hp _ _ hplan => loop_retried hsteps hnodup hp hplan, ?_, hrequesters, ?_, ?_⟩
  · refine hrooms.imp fun k k' hmoved => ?_
    exact ⟨hmoved.id, hmoved.bookingId, hmoved.status, hmoved.startAt, hmoved.endAt,
      fun h => hmoved.moved (.inr h), fun h => hmoved.kept fun h' => h (h'.resolve_left id)⟩
  · intro bookingId
    refine hsteps.invariant (I := fun s => (s.bookings.get? bookingId).bind
      BookingRow.recurrenceSeriesId = (db.bookings.get? bookingId).bind
        BookingRow.recurrenceSeriesId) ?_ rfl
    intro p _ s s' out hsame hstep
    obtain ⟨_, _, _, happlied⟩ := commitOccurrence_ok hstep
    exact (seriesOf_applied happlied bookingId).trans hsame
  · intro seriesId
    refine hsteps.invariant (I := fun s => scopeRows s seriesId none =
      scopeRows db seriesId none) ?_ rfl
    intro p _ s s' out hsame hstep
    obtain ⟨_, _, hcheck, happlied⟩ := commitOccurrence_ok hstep
    obtain ⟨hbooking, hnotCancelled, _⟩ := checkEdit_ok hcheck
    exact (scopeRows_applied happlied (Table.get?_eq_some.mp hbooking).1 hnotCancelled
      seriesId).trans hsame

theorem replan_one {p : Nat × EditPlan} (h : SeriesAfter r db db' plans) (hp : p ∈ plans)
    (hplan : planOccurrence r.planEnv db r.patch r.resolutionAt p.1 = .ok p) :
    ∃ p', planOccurrence r.planEnv db' r.patch r.resolutionAt p.1 = .ok p' ∧ p'.1 = p.1 ∧
      p'.2.booking.recurrenceOverridden = none ∧
        (p'.2.hashed = p.2.hashed ↔ StableAt db r (plans.map Prod.fst) p.1) := by
  obtain ⟨_, booking, slot, hplanned⟩ := planned_of_planOccurrence hplan
  obtain ⟨booking', slot', hretried⟩ := h.retried p hp booking slot hplanned
  have hfirst := hplanned.plan
  have hbooking := hplanned.isBooking
  rw [← hplanned.hid] at hfirst hbooking
  obtain ⟨plan', hplan', hsame⟩ := retriedPlan_iff hretried hbooking hplanned.isSlot (.inl rfl) hfirst
  have hfind : db.slots.rows.find? (fun s => s.bookingId == p.1) = some slot := hplanned.isPrimary
  obtain ⟨k, hprimary, hmoved⟩ := forall₂_find? h.rooms (q := fun s => s.bookingId == p.1)
    (fun k k' hmoved => by rw [hmoved.bookingId]) hfind
  have hprimary' : primarySlot db' p.1 = some k := hprimary
  have hagain : planOccurrence r.planEnv db' r.patch r.resolutionAt p.1 = .ok (p.1, plan') := by
    unfold planOccurrence
    rw [hprimary']
    simp only
    rw [hmoved.id, ← hplanned.hid, hplan']
  have hoverride : plan'.booking.recurrenceOverridden = none := by
    obtain ⟨_, again, slot'', hplanned'⟩ := planned_of_planOccurrence hagain
    rw [show plan' = _ from hplanned'.slotPlan_eq]
    rfl
  have hrequester : requesterOf db slot = some booking.requesterPersonId := by
    unfold requesterOf
    rw [hplanned.hof, hplanned.isBooking]
    rfl
  refine ⟨(p.1, plan'), hagain, rfl, hoverride, hsame.trans ?_⟩
  rw [buffersAt_moved_iff h.rooms h.requesters, hplanned.hid.trans hplanned.hof.symm]
  constructor
  · rintro ⟨hbuffers, hdelivery⟩ s requesterPersonId hs hperson
    rw [hplanned.isPrimary] at hs
    cases hs
    rw [hrequester] at hperson
    cases hperson
    exact ⟨hdelivery, hbuffers⟩
  · intro hstable
    have hone := hstable slot booking.requesterPersonId hplanned.isPrimary hrequester
    exact ⟨hone.buffers, hone.delivery⟩

theorem replan_all {all : List (Nat × EditPlan)}
    (h : SeriesAfter r db db' all) (hsub : ∀ p ∈ plans, p ∈ all)
    (hplans : List.Forall₂ (fun id p => planOccurrence r.planEnv db r.patch r.resolutionAt id = .ok p)
      rows plans) :
    ∃ plans', List.Forall₂
        (fun id p => planOccurrence r.planEnv db' r.patch r.resolutionAt id = .ok p) rows plans' ∧
      (∀ p ∈ plans', p.2.booking.recurrenceOverridden = none) ∧
        (editScopePayload plans' = editScopePayload plans ↔
          ∀ id ∈ rows, StableAt db r (all.map Prod.fst) id) := by
  induction hplans with
  | nil =>
    exact ⟨[], .nil, fun p hp => absurd hp List.not_mem_nil,
      iff_of_true rfl fun id hid => absurd hid List.not_mem_nil⟩
  | @cons id p rows plans hplan _ ih =>
    have hid : p.1 = id := (planned_of_planOccurrence hplan).1
    subst hid
    obtain ⟨p', hplan', hid, hoverride, hsame⟩ := replan_one h (hsub p List.mem_cons_self) hplan
    obtain ⟨plans', hplans', hoverrides, hall⟩ := ih fun q hq =>
      hsub q (List.mem_cons_of_mem _ hq)
    refine ⟨p' :: plans', .cons hplan' hplans', ?_, ?_⟩
    · intro q hq
      rcases List.mem_cons.mp hq with rfl | hq
      · exact hoverride
      · exact hoverrides q hq
    · rw [List.forall_mem_cons, ← hsame, ← hall]
      unfold editScopePayload
      rw [BookingPayload.editScope.injEq, BookingPayload.editScope.injEq, List.map_cons,
        List.map_cons, List.cons.injEq, Prod.mk.injEq, hid, eq_self, true_and]

theorem nodup_scopeRows (db : BookingDb) (seriesId : Nat) (startFrom : Option Int) :
    (scopeRows db seriesId startFrom).Nodup := by
  refine (List.perm_insertionSort _ _).nodup_iff.mpr ?_
  exact db.bookings.nodup.sublist (List.filter_sublist.map BookingRow.id)

theorem map_fst_plans
    (h : List.Forall₂ (fun id p => planOccurrence env db patch resolutionAt id = .ok p) rows plans) :
    plans.map Prod.fst = rows := by
  induction h with
  | nil => rfl
  | cons hplan _ ih => rw [List.map_cons, ih, (planned_of_planOccurrence hplan).1]

theorem run_recorded (h : store.operations.get? call.idempotencyKey =
      some ⟨call.idempotencyKey, editScopePayload plans, .success result⟩) :
    editBookingScope.run store call false =
      if editScopePayload call.plans = editScopePayload plans then .ok (store, .committed result)
      else .error (.gate .payloadMismatch) := by
  unfold editBookingScope.run
  rw [if_neg Bool.false_ne_true, gate_of_success h]
  by_cases hsame : editScopePayload call.plans = editScopePayload plans
  · rw [if_pos hsame, if_pos hsame]
  · rw [if_neg hsame, if_neg hsame]

structure ScopeApplied (store : BookingStore) (r : ScopeRequest) (seriesId : Nat)
    (store' : BookingStore) (plans : List (Nat × EditPlan)) : Prop where
  series : (store.db.bookings.get? r.bookingId).bind BookingRow.recurrenceSeriesId = some seriesId
  planned : List.Forall₂ (fun id p =>
    planOccurrence r.planEnv store.db r.patch r.resolutionAt id = .ok p)
      (scopeRows store.db seriesId none) plans
  valid : ValidPlans plans
  known : KnownActor r.env.userOf r.actorUserId
  unused : store.operations.get? r.idempotencyKey = none
  after : SeriesAfter r store.db store'.db plans
  operations : ∃ result, store'.operations = finish (begin store.operations r.idempotencyKey
    (editScopePayload plans)) r.idempotencyKey result

variable {newSeriesId : Option Nat} {response : ScopeResponse}

theorem apply_cases (h : r.apply store seriesId none newSeriesId false = (store', .ok response)) :
    (store' = store ∧ store.operations.get? r.idempotencyKey ≠ none ∧
      (store.db.bookings.get? r.bookingId).bind BookingRow.recurrenceSeriesId = some seriesId) ∨
        ∃ plans, ScopeApplied store r seriesId store' plans := by
  unfold ScopeRequest.apply at h
  split at h
  · cases h
  rename_i plans hassembled
  split at h
  · cases h
  rename_i result hedit
  cases h
  obtain ⟨hkey, hvalid, hknown⟩ := editBookingScope_ok hedit
  rw [editBookingScope_eq hkey hvalid hknown] at hedit
  obtain ⟨⟨pivot, hpivot, hseries⟩, _, _, hplans⟩ := assembleScopeEditPlan_ok hassembled
  have hseries : (store.db.bookings.get? r.bookingId).bind BookingRow.recurrenceSeriesId =
      some seriesId := by
    rw [hpivot]
    exact hseries
  obtain ⟨rfl, hrecorded⟩ | ⟨hunused, scopeId, outs, _, hsteps, hstore, _⟩ := run_ok hedit
  · exact .inl ⟨rfl, hrecorded, hseries⟩
  refine .inr ⟨plans, hseries, hplans, hvalid, hknown, hunused, ?_, _, by rw [hstore]; rfl⟩
  refine seriesAfter_of_steps hsteps (by rw [map_fst_plans hplans]; exact nodup_scopeRows _ _ _) ?_
  intro p hp
  obtain ⟨id, _, hplan⟩ := forall₂_exists_left hplans hp
  exact (planned_of_planOccurrence hplan).2

/-- The edit of a series that is sent again after its split is answered when its occurrences are
stable. -/
theorem applyReplay_iff
    (h : r.apply store seriesId none newSeriesId false = (store', .ok response)) :
    (∃ store'' response', r.apply store' seriesId none newSeriesId false =
        (store'', .ok response') ∧ SameTables store' store'') ↔
      store.operations.get? r.idempotencyKey ≠ none ∨
        ∀ id ∈ scopeRows store.db seriesId none,
          StableAt store.db r (scopeRows store.db seriesId none) id := by
  have hrefl : SameTables store' store' := ⟨rfl, rfl⟩
  obtain ⟨rfl, hused, _⟩ | ⟨plans, happlied⟩ := apply_cases h
  · exact iff_of_true ⟨store', _, h, hrefl⟩ (.inl hused)
  obtain ⟨plans', hplans', hoverrides, hsame⟩ := replan_all happlied.after (fun p hp => hp)
    happlied.planned
  rw [map_fst_plans happlied.planned] at hsame
  have hlength : (scopeRows store.db seriesId none).length = plans.length :=
    happlied.planned.length_eq
  have hvalid' : ValidPlans plans' := by
    have hlength' : plans'.length = plans.length := hplans'.length_eq.symm.trans hlength
    refine ⟨?_, by rw [hlength']; exact happlied.valid.few, hoverrides⟩
    intro hnil
    rw [hnil, List.length_nil] at hlength'
    exact happlied.valid.nonempty (List.length_eq_zero_iff.mp hlength'.symm)
  have hassembled : assembleScopeEditPlan r.planEnv store'.db r.bookingId seriesId r.patch
      r.resolutionAt none = .ok plans' := by
    refine assembleScopeEditPlan_of ?_ (happlied.after.scope seriesId) ?_ ?_ hplans'
    · rw [happlied.after.series]
      exact happlied.series
    · intro hnil
      rw [hnil, List.length_nil] at hlength
      exact happlied.valid.nonempty (List.length_eq_zero_iff.mp hlength.symm)
    · rw [hlength]
      exact happlied.valid.few
  obtain ⟨result, hoperations⟩ := happlied.operations
  have hrecorded : store'.operations.get? r.idempotencyKey = some ⟨r.idempotencyKey,
      editScopePayload plans, .success result⟩ := by
    rw [hoperations, get?_finish_begin happlied.unused, if_pos rfl]
  have hretry : r.apply store' seriesId none newSeriesId false =
      if editScopePayload plans' = editScopePayload plans then
        (store', .ok ⟨newSeriesId, .committed result⟩)
      else (store', .error (.command (.gate .payloadMismatch))) := by
    have hanswer : editBookingScope store' (r.call plans') false =
        if editScopePayload plans' = editScopePayload plans then .ok (store', .committed result)
        else .error (.gate .payloadMismatch) :=
      (editBookingScope_eq r.idempotencyKey_ne_empty hvalid' happlied.known store' false).trans
        (run_recorded hrecorded)
    unfold ScopeRequest.apply
    rw [hassembled]
    simp only
    rw [hanswer]
    split_ifs <;> rfl
  rw [or_iff_right fun hused => hused happlied.unused, hretry, ← hsame]
  constructor
  · rintro ⟨store'', response', hok, _⟩
    by_contra hdiffers
    rw [if_neg hdiffers] at hok
    cases hok
  · intro heq
    exact ⟨store', _, if_pos heq, hrefl⟩

/-- What an edit of a series leaves as it was. -/
structure KeepsPivots (store store' : BookingStore) : Prop where
  slot : ∀ id, primarySlot store.db id ≠ none → primarySlot store'.db id ≠ none
  series : ∀ id, (store'.db.bookings.get? id).bind BookingRow.recurrenceSeriesId =
    (store.db.bookings.get? id).bind BookingRow.recurrenceSeriesId
  recorded : ∀ key op, store.operations.get? key = some op → store'.operations.get? key = some op

theorem apply_keeps (h : r.apply store seriesId none newSeriesId false = (store', .ok response)) :
    KeepsPivots store store' := by
  obtain ⟨rfl, _, _⟩ | ⟨plans, happlied⟩ := apply_cases h
  · exact ⟨fun _ hslot => hslot, fun _ => rfl, fun _ _ hop => hop⟩
  refine ⟨?_, happlied.after.series, ?_⟩
  · intro id hslot
    obtain ⟨slot, hslot⟩ := Option.ne_none_iff_exists'.mp hslot
    obtain ⟨slot', hslot', _⟩ := forall₂_find? happlied.after.rooms
      (q := fun s => s.bookingId == id) (fun k k' hmoved => by rw [hmoved.bookingId]) hslot
    rw [show primarySlot store'.db id = some slot' from hslot']
    exact Option.some_ne_none _
  · obtain ⟨result, hoperations⟩ := happlied.operations
    have hrecords : Records store.operations store'.operations r.idempotencyKey
        (editScopePayload plans) result := by
      rw [hoperations]
      exact .finished happlied.unused
    exact hrecords.others

theorem editScope_eq (htimes : r.timeShift = false)
    (hslot : primarySlot store.db r.bookingId ≠ none)
    (hseries : (store.db.bookings.get? r.bookingId).bind BookingRow.recurrenceSeriesId =
      some seriesId) :
    editScope store r false =
      match r.scope with
      | .series => r.apply store seriesId none none false
      | .thisAndFollowing =>
          match splitRecurrenceSeries store r.splitCall with
          | .error e => (store, .error (.split e))
          | .ok (split, .split newSeriesId _ _ _) =>
              r.apply split newSeriesId none (some newSeriesId) false
          | .ok (split, _) => (split, .error .recurrenceFailed) := by
  obtain ⟨slot, hslot⟩ := Option.ne_none_iff_exists'.mp hslot
  obtain ⟨pivot, hpivot, hseries⟩ := Option.bind_eq_some_iff.mp hseries
  unfold editScope
  rw [htimes, if_neg Bool.false_ne_true, hslot, hpivot]
  simp only [hseries]
  cases r.scope <;> rfl

theorem idempotencyKey_ne_splitKey (r : ScopeRequest) : r.idempotencyKey ≠ r.splitKey := by
  unfold ScopeRequest.idempotencyKey ScopeRequest.splitKey
  rw [ne_eq, String.append_left_inj, String.append_left_inj, String.append_left_inj]
  decide +kernel

/-- A split moves bookings to another series, which the second plans do not read. -/
structure SameForPlans (db db' : BookingDb) : Prop where
  slots : db'.slots = db.slots
  orders : db'.orders = db.orders
  requesters : ∀ k, requesterOf db' k = requesterOf db k

theorem SplitDone.sameForPlans {call : SplitCall} {pivot : BookingRow}
    {source : Recurrence.SeriesRow} (h : SplitDone store call pivot source store' result) :
    SameForPlans store.db store'.db := by
  rw [h.db]
  refine ⟨rfl, rfl, fun k => ?_⟩
  unfold requesterOf splitBookings
  rw [Table.get?_update, Option.map_map]
  congr 1
  funext b
  rw [Function.comp_apply]
  unfold Table.updated
  split <;> rfl

theorem SameForPlans.stableAt_iff (h : SameForPlans db db') (ids : List Nat) (id : Nat) :
    StableAt db' r ids id ↔ StableAt db r ids id := by
  have hprimary : primarySlot db' = primarySlot db := by
    unfold primarySlot
    rw [h.slots]
  have hrequester : requesterOf db' = requesterOf db := funext h.requesters
  have hdelivery : KeepsDelivery db' = KeepsDelivery db := by
    unfold KeepsDelivery
    rw [h.orders]
  have hedited : EditedBy db' = EditedBy db := by
    unfold EditedBy
    rw [hprimary]
  have hside : KeepsSide db' = KeepsSide db := by
    unfold KeepsSide hasNeighbour near
    rw [h.slots, hrequester]
  have hone : ∀ person slot, StableOccurrence db' r ids person slot ↔
      StableOccurrence db r ids person slot := by
    intro person slot
    constructor
    · rintro ⟨hkeeps, hbuffers⟩
      rw [hdelivery] at hkeeps
      rw [hside, hedited] at hbuffers
      exact ⟨hkeeps, hbuffers⟩
    · rintro ⟨hkeeps, hbuffers⟩
      refine ⟨by rw [hdelivery]; exact hkeeps, ?_⟩
      rw [hside, hedited]
      exact hbuffers
  unfold StableAt
  rw [hprimary, hrequester]
  simp only [hone]

theorem scopeReplay_iff (h : editScope store r false = (store', .ok response)) :
    (∃ store'' response', editScope store' r false = (store'', .ok response') ∧
        SameTables store' store'') ↔ StableScopeEdit store r := by
  have hfirst := h
  unfold editScope at h
  split at h
  · cases h
  rename_i htimes
  rw [Bool.not_eq_true] at htimes
  split at h
  swap
  · cases h
  rename_i slot pivot hslot hpivot
  split at h
  · cases h
  rename_i seriesId hrecurring
  have hseries : (store.db.bookings.get? r.bookingId).bind BookingRow.recurrenceSeriesId =
      some seriesId := by
    rw [hpivot]
    exact hrecurring
  have hslot : primarySlot store.db r.bookingId ≠ none := by
    rw [hslot]
    exact Option.some_ne_none _
  clear h
  rw [editScope_eq htimes hslot hseries] at hfirst
  unfold StableScopeEdit ScopeRequest.targets
  cases hscope : r.scope with
  | series =>
    simp only [hscope, hseries] at hfirst ⊢
    have hkeeps := apply_keeps hfirst
    rw [editScope_eq htimes (hkeeps.slot _ hslot) ((hkeeps.series _).trans hseries)]
    simp only [hscope]
    exact applyReplay_iff hfirst
  | thisAndFollowing =>
    simp only [hscope] at hfirst ⊢
    split at hfirst
    · cases hfirst
    swap
    · cases hfirst
    rename_i split newSeriesId sourceId count pivotId hsplit
    obtain ⟨hkey, hactor, hrecords⟩ := splitSeries_records hsplit
    have hsame : SameForPlans store.db split.db := by
      obtain ⟨rfl, _⟩ | ⟨_, _, hdone⟩ := split_cases hsplit
      · exact ⟨rfl, rfl, fun _ => rfl⟩
      · exact hdone.sameForPlans
    have hkeeps := apply_keeps hfirst
    have hslot' : primarySlot split.db r.bookingId ≠ none := by
      unfold primarySlot at hslot ⊢
      rw [hsame.slots]
      exact hslot
    have hseries' : (split.db.bookings.get? r.bookingId).bind BookingRow.recurrenceSeriesId =
        some newSeriesId := by
      obtain ⟨_, _, hin⟩ | ⟨_, happlied⟩ := apply_cases hfirst
      · exact hin
      · exact happlied.series
    have hagain : splitRecurrenceSeries store' r.splitCall =
        .ok (store', .split newSeriesId sourceId count pivotId) :=
      splitSeries_answers r.splitCall hkey hactor (hkeeps.recorded _ _ hrecords.own)
    have hkeyKept : split.operations.get? r.idempotencyKey ≠ none ↔
        store.operations.get? r.idempotencyKey ≠ none := by
      constructor
      · intro hused hnone
        exact hused (hrecords.unused _ (idempotencyKey_ne_splitKey r) hnone)
      · intro hused
        obtain ⟨op, hop⟩ := Option.ne_none_iff_exists'.mp hused
        rw [hrecords.others _ op hop]
        exact Option.some_ne_none _
    rw [editScope_eq htimes (hkeeps.slot _ hslot') ((hkeeps.series _).trans hseries')]
    simp only [hscope, hagain, hsplit]
    rw [← hkeyKept]
    have hiff := applyReplay_iff hfirst
    simp only [hsame.stableAt_iff] at hiff
    exact hiff

end

/-! ## The law, exactly -/

/-- An edit is answered when it is sent again exactly when it is stable. -/
theorem replaySafe_iff {store store' : BookingStore} {op : EditOperation}
    (h : editOperation store op = .ok store') : ReplaySafe store' op ↔ StableEdit store op := by
  unfold ReplaySafe
  cases op with
  | slot planEnv r =>
    unfold editOperation at h
    simp only at h
    split at h
    · cases h
    rename_i hedit
    cases h
    show _ ↔ StableSlotEdit store r
    rw [← slotReplay_iff hedit]
    unfold editOperation
    constructor
    · rintro ⟨store'', hagain, hsame⟩
      simp only at hagain
      split at hagain
      · cases hagain
      rename_i heq
      cases hagain
      exact ⟨store'', heq, hsame⟩
    · rintro ⟨store'', hagain, hsame⟩
      exact ⟨store'', by simp only [hagain], hsame⟩
  | scope r =>
    unfold editOperation at h
    simp only at h
    split at h
    · cases h
    rename_i hedit
    cases h
    show _ ↔ StableScopeEdit store r
    rw [← scopeReplay_iff hedit]
    unfold editOperation
    constructor
    · rintro ⟨store'', hagain, hsame⟩
      simp only at hagain
      split at hagain
      · cases hagain
      rename_i heq
      cases hagain
      exact ⟨store'', _, heq, hsame⟩
    · rintro ⟨store'', response', hagain, hsame⟩
      exact ⟨store'', by simp only [hagain], hsame⟩

/-! ## Lunch in the room -/

def lunch : OrderRow where
  id := 1
  bookingId := some 1
  status := .confirmed
  deliveryLocationId := some 100
  requestedForStartAt := some (9 * 3600000)

theorem nodup_morning : ([morning].map key).Nodup := by decide

def lunchMeeting : BookingStore where
  db :=
    { bookings := ⟨[morning], nodup_morning⟩
      slots := ⟨[firstRoom], by decide⟩
      approvals := Table.empty
      orders := ⟨[lunch], by decide⟩ }

def openRooms : EditPlanEnv where
  loadSpace := fun _ => some {}
  resolve := fun _ _ _ _ _ _ => { final := .allow, approvalConfig := none }
  computeCost := fun _ _ _ => none
  policySnapshot := fun _ _ _ => ""

/-- The meeting moves to another room. -/
def toRoom (spaceId : Nat) : EditOperation :=
  .slot openRooms { dragTo (.slot 1) 9 10 with patch := { spaceId := some spaceId } }

/-- Dragged to the afternoon, lunch stays in its room, and the drag can be sent again. -/
theorem draggedLunch_replaySafe :
    ∃ store', editOperation lunchMeeting (.slot openRooms (dragTo .one 14 15)) = .ok store' ∧
      ReplaySafe store' (.slot openRooms (dragTo .one 14 15)) := by
  have hok : (editOperation lunchMeeting
      (.slot openRooms (dragTo .one 14 15))).toOption.isSome = true := by decide +kernel
  cases hedit : editOperation lunchMeeting (.slot openRooms (dragTo .one 14 15)) with
  | error e =>
    rw [hedit] at hok
    cases hok
  | ok store' =>
    refine ⟨store', rfl, (replaySafe_iff hedit).mpr (.inr (.inr ?_))⟩
    intro slot hslot o ho _
    obtain rfl : firstRoom = slot := Option.some.inj hslot
    obtain rfl := List.mem_singleton.mp ho
    decide

/-- Lunch follows the meeting to its new room, and the answer to the same request is an error. -/
theorem repointedOrder_mismatch :
    ¬∀ (store store' : BookingStore) (op : EditOperation),
      editOperation store op = .ok store' → ReplaySafe store' op := by
  intro hlaw
  have hok : (editOperation lunchMeeting (toRoom 200)).toOption.isSome = true := by decide +kernel
  have hagain : ((editOperation lunchMeeting (toRoom 200)).bind fun store' =>
      (editOperation store' (toRoom 200)).map fun _ => ()) =
        .error (.slot (.command (.gate .payloadMismatch))) := by decide +kernel
  cases hedit : editOperation lunchMeeting (toRoom 200) with
  | error e =>
    rw [hedit] at hok
    cases hok
  | ok store' =>
    obtain ⟨store'', hretry, _⟩ := hlaw lunchMeeting store' (toRoom 200) hedit
    rw [hedit] at hagain
    simp only [Except.bind, hretry, Except.map] at hagain
    cases hagain

end Prequest.Booking
