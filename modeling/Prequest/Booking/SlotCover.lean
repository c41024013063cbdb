import Mathlib.Order.Bounds.Basic
import Prequest.Booking.EditBooking
import Prequest.Lib.Run

/-!
# The window of a booking and its slots

The lists of bookings filter by the window of the booking, which is meant to be
that of its slots: from the first start to the last end, in the room of the
primary slot. The plan of an edit takes the three from the slot that is edited.

* `editsCover_iff`: successful edits keep the cover exactly when each of them fits.
* `secondSlot_uncovers`: a booking of two rooms.
-/

namespace Prequest.Booking

open Prequest.Lib Prequest.Approval Prequest.Command

/-! ## The two requests -/

inductive EditTarget where
  /-- `editOne`: the primary slot. -/
  | one
  /-- `editSlot`: the slot that was dragged. -/
  | slot (slotId : Nat)
  deriving DecidableEq, Repr

/-- A request to edit a booking, with what is read and drawn for it. -/
structure EditRequest where
  bookingId : Nat
  target : EditTarget
  patch : EditPatch
  reads : EditPlanReads
  resolutionAt : Int
  actorUserId : Option Nat := none
  idempotencyKey : String
  now : Nat
  newChainId : Nat
  newApprovalId : Nat → Nat
  env : CommandEnv

inductive EditRequestError where
  | invalidWindow
  | slotNotFound
  | plan (e : EditPlanError)
  | command (e : EditError)
  deriving DecidableEq, Repr

namespace EditRequest

variable (r : EditRequest)

/-- Both times are sent and are not in order. -/
def invalidWindow : Bool :=
  r.patch.startAt.any fun startAt => r.patch.endAt.any fun endAt => decide (endAt ≤ startAt)

def slot? (db : BookingDb) : Option SlotRow :=
  match r.target with
  | .one => primarySlot db r.bookingId
  | .slot slotId => (db.slots.get? slotId).filter fun s => s.bookingId == r.bookingId

def hasGeometryChange (slot : SlotRow) : Bool :=
  r.patch.spaceId.any (· ≠ slot.spaceId) || r.patch.startAt.any (· ≠ slot.startAt) ||
    r.patch.endAt.any (· ≠ slot.endAt) || r.patch.restated

def hasMetaKey : Bool :=
  r.patch.attendeeCount.isSome || r.patch.attendeePersonIds.isSome || r.patch.hostPersonId.isSome

/-- `editOne` returns the booking as it is when there is nothing to change. -/
def isNoop (slot : SlotRow) : Bool :=
  r.target == .one && !r.hasGeometryChange slot && !r.hasMetaKey

/-- What the planner gets. Only `editOne` sends more than a room and a window. -/
def planPatch : EditPatch :=
  match r.target with
  | .one => { r.patch with autoSetRecurrenceOverridden := true }
  | .slot _ =>
      { spaceId := r.patch.spaceId, startAt := r.patch.startAt, endAt := r.patch.endAt }

def call (plan : EditPlan) : EditCall where
  bookingId := r.bookingId
  plan := plan
  actorUserId := r.actorUserId
  idempotencyKey := r.idempotencyKey
  now := r.now
  newChainId := r.newChainId
  newApprovalId := r.newApprovalId
  env := r.env

end EditRequest

/-- `editOne` and `editSlot`: plan the edit and apply it. -/
def editRequest (store : BookingStore) (r : EditRequest) : Except EditRequestError BookingStore :=
  if r.invalidWindow then .error .invalidWindow
  else match r.slot? store.db with
    | none => .error .slotNotFound
    | some slot =>
        if r.isNoop slot then .ok store
        else match assembleEditPlan r.reads store.db r.bookingId slot.id r.planPatch
            r.resolutionAt with
          | .error e => .error (.plan e)
          | .ok plan =>
              match editBooking store (r.call plan) with
              | .error e => .error (.command e)
              | .ok (store, _) => .ok store

/-- One request; one that fails changes nothing. -/
def editRequestOne (store : BookingStore) (r : EditRequest) : BookingStore :=
  match editRequest store r with
  | .ok store => store
  | .error _ => store

/-! ## The cover -/

/-- The slots of a booking that are not finished, the primary one first. -/
def liveSlots (db : BookingDb) (bookingId : Nat) : List SlotRow :=
  db.slots.rows.filter fun s => s.bookingId == bookingId && !s.status.terminal

/-- A room and a window are those of the slots: from the first start to the last end, in the room
of the first slot. -/
structure Spans (slots : List SlotRow) (spaceId : Nat) (startAt endAt : Int) : Prop where
  start : IsLeast {t | ∃ s ∈ slots, s.startAt = t} startAt
  finish : IsGreatest {t | ∃ s ∈ slots, s.endAt = t} endAt
  location : ∀ s, slots.head? = some s → s.spaceId = spaceId

def Covers (db : BookingDb) (bookingId : Nat) : Prop :=
  ∀ b, db.bookings.get? bookingId = some b → liveSlots db bookingId ≠ [] →
    Spans (liveSlots db bookingId) b.locationId b.startAt b.endAt

/-- The request is answered without an error. -/
def Succeeds (store : BookingStore) (r : EditRequest) : Prop :=
  ∃ store', editRequest store r = .ok store'

/-- The new window of one slot contains the windows of the others, and its new room is that of the
first slot. If it is not among the slots, they reach both ends of the window. -/
structure FitsSlots (slots : List SlotRow) (slotId spaceId : Nat) (startAt endAt : Int) :
    Prop where
  others : ∀ s ∈ slots, s.id ≠ slotId → startAt ≤ s.startAt ∧ s.endAt ≤ endAt
  location : ∀ s, slots.head? = some s → s.id ≠ slotId → s.spaceId = spaceId
  reached : (∃ s ∈ slots, s.id = slotId) ∨
    (∃ s ∈ slots, s.startAt = startAt) ∧ ∃ s ∈ slots, s.endAt = endAt

/-- The request edits a slot of the booking to a window and a room that fit the other slots. A
request that was answered before, or that changes nothing, has nothing to fit. -/
def KeepsCover (bookingId : Nat) (store : BookingStore) (r : EditRequest) : Prop :=
  r.bookingId = bookingId → store.operations.get? r.idempotencyKey = none →
    ∀ slot, r.slot? store.db = some slot → r.isNoop slot = false →
      liveSlots store.db bookingId ≠ [] →
        FitsSlots (liveSlots store.db bookingId) slot.id (r.patch.spaceId.getD slot.spaceId)
          (r.patch.startAt.getD slot.startAt) (r.patch.endAt.getD slot.endAt)

/-! ## One slot moved -/

theorem spans_map_iff {slots : List SlotRow} {slotId spaceId : Nat} {startAt endAt : Int}
    {move : SlotRow → SlotRow} (hmoved : ∀ s, s ∈ slots → s.id = slotId →
      (move s).spaceId = spaceId ∧ (move s).startAt = startAt ∧ (move s).endAt = endAt)
    (hkept : ∀ s ∈ slots, s.id ≠ slotId → move s = s) :
    Spans (slots.map move) spaceId startAt endAt ↔ FitsSlots slots slotId spaceId startAt endAt := by
  have hsame : (¬∃ s ∈ slots, s.id = slotId) → slots.map move = slots := by
    intro hnone
    calc slots.map move = slots.map id :=
          List.map_congr_left fun s hs => hkept s hs fun hid => hnone ⟨s, hs, hid⟩
      _ = slots := List.map_id slots
  constructor
  · intro h
    refine ⟨?_, ?_, ?_⟩
    · intro s hs hne
      have hmem : s ∈ slots.map move := List.mem_map.mpr ⟨s, hs, hkept s hs hne⟩
      exact ⟨h.start.2 ⟨s, hmem, rfl⟩, h.finish.2 ⟨s, hmem, rfl⟩⟩
    · intro s hhead hne
      have hmove := hkept s (List.mem_of_head? hhead) hne
      exact h.location s (by rw [List.head?_map, hhead, Option.map_some, hmove])
    · by_cases hedited : ∃ s ∈ slots, s.id = slotId
      · exact .inl hedited
      · rw [hsame hedited] at h
        exact .inr ⟨h.start.1, h.finish.1⟩
  · intro h
    have hbounds : ∀ s ∈ slots.map move, startAt ≤ s.startAt ∧ s.endAt ≤ endAt := by
      intro s' hs'
      obtain ⟨s, hs, rfl⟩ := List.mem_map.mp hs'
      by_cases hid : s.id = slotId
      · obtain ⟨_, hstart, hend⟩ := hmoved s hs hid
        exact ⟨Int.le_of_eq hstart.symm, Int.le_of_eq hend⟩
      · rw [hkept s hs hid]
        exact h.others s hs hid
    have hreached : (∃ s ∈ slots.map move, s.startAt = startAt) ∧
        ∃ s ∈ slots.map move, s.endAt = endAt := by
      by_cases hedited : ∃ s ∈ slots, s.id = slotId
      · obtain ⟨s, hs, hid⟩ := hedited
        obtain ⟨_, hstart, hend⟩ := hmoved s hs hid
        exact ⟨⟨_, List.mem_map_of_mem hs, hstart⟩, _, List.mem_map_of_mem hs, hend⟩
      · rw [hsame hedited]
        exact h.reached.resolve_left hedited
    refine ⟨⟨hreached.1, ?_⟩, ⟨hreached.2, ?_⟩, ?_⟩
    · rintro t ⟨s, hs, rfl⟩
      exact (hbounds s hs).1
    · rintro t ⟨s, hs, rfl⟩
      exact (hbounds s hs).2
    · intro s' hhead
      rw [List.head?_map] at hhead
      obtain ⟨s, hs, rfl⟩ := Option.map_eq_some_iff.mp hhead
      by_cases hid : s.id = slotId
      · exact (hmoved s (List.mem_of_head? hs) hid).1
      · rw [hkept s (List.mem_of_head? hs) hid]
        exact h.location s hs hid

/-! ## One edit -/

section

variable {store store' : BookingStore} {r : EditRequest} {bookingId : Nat}

variable {db' : BookingDb} {result : BookingResult}

theorem editFresh_writes {call : EditCall} (h : editFresh call store = .ok (db', result)) :
    ∃ b status, store.db.bookings.get? call.bookingId = some b ∧
      applySlotPatches store.db.slots b.id call.plan.slotPatches = .ok db'.slots ∧
      db'.bookings = store.db.bookings.update (fun row => row.id == b.id)
        ⟨editedBooking call.plan.booking status call.now, fun _ => rfl⟩ := by
  simp only [editFresh] at h
  split at h
  · cases h
  rename_i b hbooking
  split at h
  · cases h
  split at h
  · cases h
  split at h
  · cases h
  rename_i action _
  split at h
  · cases h
  split at h
  · cases h
  simp only [applyEdit] at h
  split at h
  · cases h
  rename_i slots hslots
  split at h
  · cases h
  split at h
  · cases h
  cases h
  exact ⟨b, action.statusTarget.getD b.status, hbooking, hslots, rfl⟩

variable {db : BookingDb} {slot : SlotRow}

theorem assembleEditPlan_target {reads : EditPlanReads}
    {patch : EditPatch} {resolutionAt : Int} {plan : EditPlan}
    (h : assembleEditPlan reads db bookingId slot.id patch resolutionAt = .ok plan)
    (hslot : db.slots.get? slot.id = some slot) :
    ∃ slotPatch, plan.slotPatches = [slotPatch] ∧ slotPatch.slotId = slot.id ∧
      slotPatch.spaceId = patch.spaceId.getD slot.spaceId ∧
      slotPatch.startAt = patch.startAt.getD slot.startAt ∧
      slotPatch.endAt = patch.endAt.getD slot.endAt ∧
      plan.booking.locationId = patch.spaceId.getD slot.spaceId ∧
      plan.booking.startAt = patch.startAt.getD slot.startAt ∧
      plan.booking.endAt = patch.endAt.getD slot.endAt := by
  unfold assembleEditPlan at h
  simp only [hslot] at h
  split at h
  · cases h
  split at h
  · cases h
  split at h
  · cases h
  split at h
  · cases h
  cases h
  exact ⟨_, rfl, rfl, rfl, rfl, rfl, rfl, rfl, rfl⟩

theorem editRequest_cases (h : editRequest store r = .ok store') :
    ∃ slot, r.slot? store.db = some slot ∧
      (store' = store ∧
          (r.isNoop slot = true ∨ store.operations.get? r.idempotencyKey ≠ none) ∨
        r.isNoop slot = false ∧ store.operations.get? r.idempotencyKey = none ∧
          ∃ plan result, assembleEditPlan r.reads store.db r.bookingId slot.id r.planPatch
              r.resolutionAt = .ok plan ∧
            editFresh (r.call plan) store = .ok (store'.db, result)) := by
  unfold editRequest at h
  split at h
  · cases h
  split at h
  · cases h
  rename_i slot hslot
  refine ⟨slot, hslot, ?_⟩
  split at h
  · rename_i hnoop
    cases h
    exact .inl ⟨rfl, .inl hnoop⟩
  rename_i hchanges
  split at h
  · cases h
  rename_i plan hplan
  split at h
  · cases h
  rename_i result hedit
  cases h
  have hgated : editBooking.gated store (r.call plan) = .ok (store', result) := by
    simp only [editBooking] at hedit
    split at hedit
    · cases hedit
    split at hedit
    · split at hedit
      · cases hedit
      · exact hedit
    · exact hedit
  simp only [editBooking.gated] at hgated
  split at hgated
  · cases hgated
  · rename_i hgate
    cases hgated
    have hrecorded : store.operations.get? r.idempotencyKey = some _ := gate_eq_cached.mp hgate
    exact .inl ⟨rfl, .inr (by rw [hrecorded]; exact Option.some_ne_none _)⟩
  · rename_i hgate
    have hunused := gate_eq_proceed.mp hgate
    split at hgated
    · cases hgated
    rename_i hfresh
    cases hgated
    exact .inr ⟨Bool.eq_false_iff.mpr hchanges, hunused, plan, _, hplan, hfresh⟩

theorem slot_of_slot? (h : r.slot? store.db = some slot) :
    store.db.slots.get? slot.id = some slot ∧ slot.bookingId = r.bookingId := by
  unfold EditRequest.slot? at h
  split at h
  · unfold primarySlot at h
    refine ⟨Table.get?_of_mem (List.mem_of_find?_eq_some h), ?_⟩
    simpa using List.find?_some h
  · obtain ⟨hget, hbooking⟩ := Option.filter_eq_some_iff.mp h
    have hid := (Table.get?_eq_some.mp hget).2
    refine ⟨by rw [show slot.id = _ from hid]; exact hget, by simpa using hbooking⟩

variable {patch : EditPlanSlotPatch}

theorem liveSlots_after (bookingId : Nat) {id : Nat}
    (h : applySlotPatches db.slots id [patch] = .ok db'.slots) :
    liveSlots db' bookingId =
      (liveSlots db bookingId).map (Table.updated (patchesSlot id patch) (applySlotPatch patch)) := by
  have hslots : db'.slots = db.slots.update (patchesSlot id patch) (applySlotPatch patch) := by
    simp only [applySlotPatches, List.foldlM_cons, List.foldlM_nil] at h
    split at h
    · cases h
    · exact (Except.ok.inj h).symm
  have hsame : ∀ s : SlotRow,
      (Table.updated (patchesSlot id patch) (applySlotPatch patch) s).bookingId = s.bookingId ∧
        (Table.updated (patchesSlot id patch) (applySlotPatch patch) s).status = s.status := by
    intro s
    unfold Table.updated
    split
    · exact ⟨rfl, rfl⟩
    · exact ⟨rfl, rfl⟩
  unfold liveSlots
  rw [hslots, show (db.slots.update (patchesSlot id patch) (applySlotPatch patch)).rows =
    db.slots.rows.map (Table.updated (patchesSlot id patch) (applySlotPatch patch)) from rfl,
    List.filter_map]
  congr 1
  refine List.filter_congr fun s _ => ?_
  simp only [Function.comp_apply, (hsame s).1, (hsame s).2]

theorem liveSlots_other {id : Nat}
    (h : applySlotPatches db.slots id [patch] = .ok db'.slots) (hne : bookingId ≠ id) :
    liveSlots db' bookingId = liveSlots db bookingId := by
  rw [liveSlots_after bookingId h]
  refine (List.map_congr_left fun s hs => ?_).trans (List.map_id _)
  have hs : s.bookingId = bookingId := by
    have hlive := (List.mem_filter.mp hs).2
    simp only [Bool.and_eq_true, beq_iff_eq] at hlive
    exact hlive.1
  exact Table.updated_of_false (by simp [patchesSlot, hs, hne])

theorem planPatch_geometry (r : EditRequest) :
    r.planPatch.spaceId = r.patch.spaceId ∧ r.planPatch.startAt = r.patch.startAt ∧
      r.planPatch.endAt = r.patch.endAt := by
  unfold EditRequest.planPatch
  split <;> exact ⟨rfl, rfl, rfl⟩

/-- What the two tables have of an edit that is written. -/
structure MovesSlot (db : BookingDb) (r : EditRequest) (slot : SlotRow) (patch : EditPlanSlotPatch)
    (db' : BookingDb) : Prop where
  slotId : patch.slotId = slot.id
  spaceId : patch.spaceId = r.patch.spaceId.getD slot.spaceId
  startAt : patch.startAt = r.patch.startAt.getD slot.startAt
  endAt : patch.endAt = r.patch.endAt.getD slot.endAt
  slots : applySlotPatches db.slots r.bookingId [patch] = .ok db'.slots
  booking : ∃ b, db'.bookings.get? r.bookingId = some b ∧ b.locationId = patch.spaceId ∧
    b.startAt = patch.startAt ∧ b.endAt = patch.endAt
  others : ∀ id, id ≠ r.bookingId → db'.bookings.get? id = db.bookings.get? id

theorem movesSlot_of_editFresh {plan : EditPlan} (hslot : r.slot? store.db = some slot)
    (hplan : assembleEditPlan r.reads store.db r.bookingId slot.id r.planPatch r.resolutionAt =
      .ok plan) (hfresh : editFresh (r.call plan) store = .ok (db', result)) :
    ∃ patch, MovesSlot store.db r slot patch db' := by
  obtain ⟨patch, hpatches, hid, hspace, hstart, hend, hlocation, hbookingStart, hbookingEnd⟩ :=
    assembleEditPlan_target hplan (slot_of_slot? hslot).1
  obtain ⟨hspaceId, hstartAt, hendAt⟩ := planPatch_geometry r
  obtain ⟨b, status, hbooking, hpatched, hbookings⟩ := editFresh_writes hfresh
  have hb : b.id = r.bookingId := (Table.get?_eq_some.mp hbooking).2
  refine ⟨patch, hid, by rw [hspace, hspaceId], by rw [hstart, hstartAt], by rw [hend, hendAt],
    ?_, ?_, ?_⟩
  · rw [show (r.call plan).plan.slotPatches = [patch] from hpatches, hb] at hpatched
    exact hpatched
  · refine ⟨editedBooking plan.booking status r.now b, ?_, ?_, ?_, ?_⟩
    · rw [hbookings, Table.get?_update, show store.db.bookings.get? r.bookingId = some b from hbooking,
        Option.map_some, Table.updated_of_true (by simp)]
      rfl
    · rw [hspace, ← hlocation]
      rfl
    · rw [hstart, ← hbookingStart]
      rfl
    · rw [hend, ← hbookingEnd]
      rfl
  · intro id hne
    rw [hbookings, Table.get?_update]
    cases hget : store.db.bookings.get? id with
    | none => rfl
    | some other =>
      have hother : other.id = id := (Table.get?_eq_some.mp hget).2
      rw [Option.map_some, Table.updated_of_false (by simp [hother, hb, hne])]

/-- After an edit of the booking, it has the room and window of its live slots exactly when the
edited slot fits the others. -/
theorem MovesSlot.covers_iff (h : MovesSlot db r slot patch db') :
    Covers db' r.bookingId ↔ (liveSlots db r.bookingId ≠ [] →
      FitsSlots (liveSlots db r.bookingId) slot.id (r.patch.spaceId.getD slot.spaceId)
        (r.patch.startAt.getD slot.startAt) (r.patch.endAt.getD slot.endAt)) := by
  obtain ⟨b, hbooking, hlocation, hstart, hend⟩ := h.booking
  have hlive := liveSlots_after r.bookingId h.slots
  have hspans : Spans (liveSlots db' r.bookingId) patch.spaceId patch.startAt patch.endAt ↔
      FitsSlots (liveSlots db r.bookingId) slot.id patch.spaceId patch.startAt patch.endAt := by
    rw [hlive]
    refine spans_map_iff ?_ ?_
    · intro s hs hid
      have hbookingId := (List.mem_filter.mp hs).2
      simp only [Bool.and_eq_true, beq_iff_eq] at hbookingId
      rw [Table.updated_of_true (by simp [patchesSlot, h.slotId, hid, hbookingId.1])]
      exact ⟨rfl, rfl, rfl⟩
    · intro s hs hne
      exact Table.updated_of_false (by simp [patchesSlot, h.slotId, hne])
  have hne : liveSlots db' r.bookingId ≠ [] ↔ liveSlots db r.bookingId ≠ [] := by
    rw [hlive, ne_eq, ne_eq, List.map_eq_nil_iff]
  rw [← h.spaceId, ← h.startAt, ← h.endAt, ← hspans, ← hne]
  constructor
  · intro hcovers hlive
    have hspans := hcovers b hbooking hlive
    rwa [hlocation, hstart, hend] at hspans
  · intro hspans b' hb' hlive
    rw [hbooking] at hb'
    obtain rfl := Option.some.inj hb'
    rw [hlocation, hstart, hend]
    exact hspans hlive

theorem MovesSlot.covers_other (h : MovesSlot db r slot patch db') (hne : bookingId ≠ r.bookingId)
    (hcovers : Covers db bookingId) : Covers db' bookingId := by
  intro b hbooking hlive
  rw [h.others bookingId hne] at hbooking
  rw [liveSlots_other h.slots hne] at hlive ⊢
  exact hcovers b hbooking hlive

theorem covers_editRequest_iff (hcovers : Covers store.db bookingId)
    (h : editRequest store r = .ok store') :
    Covers store'.db bookingId ↔ KeepsCover bookingId store r := by
  obtain ⟨slot, hslot, ⟨rfl, hsame⟩ | ⟨hchanges, hunused, plan, result, hplan, hfresh⟩⟩ :=
    editRequest_cases h
  · refine iff_of_true hcovers ?_
    intro _ hunused slot' hslot' hchanges
    rw [hslot] at hslot'
    cases hslot'
    rcases hsame with hnoop | hrecorded
    · rw [hnoop] at hchanges
      cases hchanges
    · exact absurd hunused hrecorded
  · obtain ⟨patch, hmoves⟩ := movesSlot_of_editFresh hslot hplan hfresh
    by_cases hsame : r.bookingId = bookingId
    · subst hsame
      rw [hmoves.covers_iff]
      constructor
      · intro hfits _ _ slot' hslot' _ hlive
        rw [hslot] at hslot'
        cases hslot'
        exact hfits hlive
      · intro hkeeps hlive
        exact hkeeps rfl hunused slot hslot hchanges hlive
    · exact iff_of_true (hmoves.covers_other (Ne.symm hsame) hcovers)
        fun heq => absurd heq hsame

end

/-! ## Sequences of edits -/

/-- The booking has the room and the window of its live slots after each edit. -/
def EditsCover (store : BookingStore) (bookingId : Nat) (edits : List EditRequest) : Prop :=
  ∀ pre post, edits = pre ++ post → Covers (run editRequestOne store pre).db bookingId

/-- Successful edits keep the room and the window of a booking those of its live slots exactly when
every slot that is edited spans the other live slots and is in the room of the first. -/
theorem editsCover_iff {store : BookingStore} {bookingId : Nat} {edits : List EditRequest}
    (hstart : Covers store.db bookingId) (hok : Guarded editRequestOne Succeeds store edits) :
    EditsCover store bookingId edits ↔
      Guarded editRequestOne (KeepsCover bookingId) store edits := by
  refine invariant_iff_guarded (I := fun store => Covers store.db bookingId) ?_ hstart hok
  intro store r hcovers hsucceeds
  obtain ⟨store', hstep⟩ := hsucceeds
  have hone : editRequestOne store r = store' := by
    unfold editRequestOne
    rw [hstep]
  rw [hone]
  exact covers_editRequest_iff hcovers hstep

/-! ## Two rooms -/

def morning : BookingRow where
  id := 1
  status := .confirmed
  locationId := 100
  startAt := 9 * 3600000
  endAt := 10 * 3600000

def firstRoom : SlotRow where
  id := 1
  bookingId := 1
  spaceId := 100
  startAt := 9 * 3600000
  endAt := 10 * 3600000
  status := .confirmed

def twoRooms : BookingStore where
  db :=
    { bookings := ⟨[morning], by decide⟩
      slots := ⟨[firstRoom, { firstRoom with id := 2, spaceId := 101 }], by decide⟩
      approvals := Table.empty }

/-- Every room is free and needs no approval. -/
def openReads : EditPlanReads where
  loadSpace := fun _ => some {}
  resolve := fun _ _ _ _ => { final := .allow, approvalConfig := none }
  snapshotBuffers := fun _ _ _ => (0, 0)
  computeCost := fun _ _ _ => none
  policySnapshot := fun _ => ""
  linkedRows := fun _ => {}

/-- A slot is dragged to another time. -/
def dragTo (target : EditTarget) (startHour endHour : Int) : EditRequest where
  bookingId := 1
  target := target
  patch := { startAt := some (startHour * 3600000), endAt := some (endHour * 3600000) }
  reads := openReads
  resolutionAt := 0
  idempotencyKey := "drag"
  now := 0
  newChainId := 1
  newApprovalId := id
  env :=
    { userOf := some
      entityInTenant := fun _ _ => true
      rules := [] }

theorem covers_twoRooms : Covers twoRooms.db 1 := by
  intro b hbooking _
  obtain rfl : morning = b := Option.some.inj hbooking
  refine ⟨⟨⟨firstRoom, .head _, rfl⟩, ?_⟩, ⟨⟨firstRoom, .head _, rfl⟩, ?_⟩, ?_⟩
  · rintro t ⟨s, hs, rfl⟩
    revert s
    decide
  · rintro t ⟨s, hs, rfl⟩
    revert s
    decide
  · intro s hhead
    obtain rfl : firstRoom = s := Option.some.inj hhead
    rfl

theorem succeeds_of_isSome {store : BookingStore} {r : EditRequest}
    (h : (editRequest store r).toOption.isSome = true) : Succeeds store r := by
  cases hstep : editRequest store r with
  | error e =>
    rw [hstep] at h
    cases h
  | ok store' => exact ⟨store', hstep⟩

/-- The second slot is moved to the afternoon, and the booking loses its morning. -/
theorem secondSlot_uncovers :
    ¬∀ (store : BookingStore) (bookingId : Nat) (edits : List EditRequest),
      Covers store.db bookingId → Guarded editRequestOne Succeeds store edits →
        EditsCover store bookingId edits := by
  intro hlaw
  have hcovers := hlaw twoRooms 1 [dragTo (.slot 2) 14 15] covers_twoRooms
    ⟨succeeds_of_isSome (by decide +kernel), trivial⟩ [dragTo (.slot 2) 14 15] [] rfl
  have hafternoon : ((run editRequestOne twoRooms [dragTo (.slot 2) 14 15]).db.bookings.get? 1).map
      BookingRow.startAt = some (14 * 3600000) := by decide +kernel
  have hfirst : firstRoom ∈
      liveSlots (run editRequestOne twoRooms [dragTo (.slot 2) 14 15]).db 1 := by decide +kernel
  obtain ⟨b, hbooking, hstart⟩ := Option.map_eq_some_iff.mp hafternoon
  have hspans := hcovers b hbooking (List.ne_nil_of_mem hfirst)
  have hle := hspans.start.2 ⟨firstRoom, hfirst, rfl⟩
  rw [hstart] at hle
  exact absurd hle (by decide)

/-- The first slot is made longer, and the booking with it. -/
theorem firstSlot_covers : EditsCover twoRooms 1 [dragTo .one 8 11] := by
  have hok : Guarded editRequestOne Succeeds twoRooms [dragTo .one 8 11] :=
    ⟨succeeds_of_isSome (by decide +kernel), trivial⟩
  refine (editsCover_iff covers_twoRooms hok).mpr ⟨?_, trivial⟩
  intro _ _ slot hslot _ _
  obtain rfl : firstRoom = slot := Option.some.inj hslot
  refine ⟨?_, ?_, .inl ⟨firstRoom, .head _, rfl⟩⟩
  · decide
  · intro s hhead
    obtain rfl : firstRoom = s := Option.some.inj hhead
    exact fun hne => absurd rfl hne

end Prequest.Booking
