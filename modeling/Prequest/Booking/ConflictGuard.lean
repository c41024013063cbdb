import Prequest.Booking.EditBooking
import Prequest.Lib.Run

/-!
# The conflict guard

A slot holds its room for its window and the buffers it was stored with, and
`booking_slots_no_overlap` keeps the windows of one room apart. Before a booking
is created its buffers are taken from the room; a buffer that touches a booking
of the same requester is dropped.

* `collapseLaw_iff`: the law holds exactly when each neighbour that is touched
  was stored without the buffer on that side.
* `backToBack_refused`: two meetings of one person in a room with buffers.
-/

namespace Prequest.Booking

open Prequest.Lib

/-! ## The services -/

def requesterOf (db : BookingDb) (s : SlotRow) : Option Nat :=
  (db.bookings.get? s.bookingId).map BookingRow.requesterPersonId

structure ConflictRow where
  id : Nat
  startAt : Int
  endAt : Int
  status : BookingStatus
  requesterPersonId : Option Nat
  deriving DecidableEq, Repr

/-- The live slots of a room whose effective window meets a window. -/
def preCheck (db : BookingDb) (spaceId : Nat) (effectiveStartAt effectiveEndAt : Int)
    (excludeIds : List Nat) : List ConflictRow :=
  ((db.slots.rows.filter fun s =>
      s.spaceId == spaceId && s.status.blocksRoom && decide (s.timeRange.1 < effectiveEndAt) &&
        decide (effectiveStartAt < s.timeRange.2)).map fun s =>
    { id := s.id
      startAt := s.startAt
      endAt := s.endAt
      status := s.status
      requesterPersonId := requesterOf db s }).filter fun r => !excludeIds.contains r.id

/-- `TOL_MS`. -/
def tolerance : Int := 1000

/-- `Math.abs(a - b) <= TOL_MS`. -/
def meets (a b : Int) : Bool := decide (a - b ≤ tolerance) && decide (b - a ≤ tolerance)

/-- One round of the loop over the neighbours. -/
def collapse (db : BookingDb) (requesterPersonId : Nat) (startAt endAt : Int) (buffers : Nat × Nat)
    (s : SlotRow) : Nat × Nat :=
  if requesterOf db s == some requesterPersonId then
    (if meets s.endAt startAt then 0 else buffers.1, if meets s.startAt endAt then 0 else buffers.2)
  else buffers

def snapshotBuffersForBooking (db : BookingDb) (spaceId requesterPersonId : Nat)
    (startAt endAt : Int) (room : TargetSpace) (excludeIds : List Nat) : Nat × Nat :=
  if room.setupBufferMinutes = 0 ∧ room.teardownBufferMinutes = 0 then (0, 0)
  else
    ((db.slots.rows.filter fun s =>
        s.spaceId == spaceId && s.status.blocksRoom &&
          (meets s.endAt startAt || meets s.startAt endAt)).filter fun s =>
            !excludeIds.contains s.id).foldl
      (collapse db requesterPersonId startAt endAt)
      (room.setupBufferMinutes, room.teardownBufferMinutes)

/-! ## Creating a booking -/

structure Candidate where
  bookingId : Nat
  slotId : Nat
  requesterPersonId : Nat
  spaceId : Nat
  startAt : Int
  endAt : Int
  needsApproval : Bool := false
  deriving DecidableEq, Repr

inductive InsertError where
  | checkViolation
  | uniqueViolation
  | slotConflict
  deriving DecidableEq, Repr

namespace Candidate

variable (c : Candidate)

def status : BookingStatus := if c.needsApproval then .pendingApproval else .confirmed

def booking : BookingRow where
  id := c.bookingId
  requesterPersonId := c.requesterPersonId
  status := c.status
  locationId := c.spaceId
  startAt := c.startAt
  endAt := c.endAt

def slot (buffers : Nat × Nat) : SlotRow where
  id := c.slotId
  bookingId := c.bookingId
  spaceId := c.spaceId
  startAt := c.startAt
  endAt := c.endAt
  setupBufferMinutes := buffers.1
  teardownBufferMinutes := buffers.2
  status := c.status

def buffers (rooms : Nat → TargetSpace) (db : BookingDb) : Nat × Nat :=
  snapshotBuffersForBooking db c.spaceId c.requesterPersonId c.startAt c.endAt (rooms c.spaceId) []

def newSlot (rooms : Nat → TargetSpace) (db : BookingDb) : SlotRow := c.slot (c.buffers rooms db)

theorem status_blocksRoom : c.status.blocksRoom = true := by
  unfold status
  split <;> rfl

end Candidate

def insertCandidate (db : BookingDb) (c : Candidate) (slot : SlotRow) :
    Except InsertError BookingDb :=
  if c.endAt ≤ c.startAt then .error .checkViolation
  else match db.bookings.insert? c.booking, db.slots.insert? slot with
    | some bookings, some slots =>
        if hasOverlap slots then .error .slotConflict
        else .ok { db with bookings := bookings, slots := slots }
    | _, _ => .error .uniqueViolation

def create (rooms : Nat → TargetSpace) (db : BookingDb) (c : Candidate) :
    Except InsertError BookingDb :=
  insertCandidate db c (c.newSlot rooms db)

/-- One creation, as a transaction that commits or is rolled back. -/
def createOne (rooms : Nat → TargetSpace) (db : BookingDb) (c : Candidate) : BookingDb :=
  match create rooms db c with
  | .ok db => db
  | .error _ => db

/-! ## The law -/

structure IsNew (db : BookingDb) (c : Candidate) : Prop where
  window : c.startAt < c.endAt
  booking : db.bookings.get? c.bookingId = none
  slot : db.slots.get? c.slotId = none

/-- A live slot of the room that ends where the candidate starts, or starts where it ends, and is
of the same requester. -/
def Touches (db : BookingDb) (c : Candidate) (s : SlotRow) : Prop :=
  s ∈ db.slots.rows ∧ s.spaceId = c.spaceId ∧ s.status.blocksRoom = true ∧
    requesterOf db s = some c.requesterPersonId ∧ (s.endAt = c.startAt ∨ s.startAt = c.endAt)

/-- The window of the candidate with the full buffers of its room stays clear of every live slot
that it does not touch. -/
def KeepsClear (rooms : Nat → TargetSpace) (db : BookingDb) (c : Candidate) : Prop :=
  ∀ s ∈ db.slots.rows, ¬Touches db c s →
    s.overlaps (c.slot ((rooms c.spaceId).setupBufferMinutes,
      (rooms c.spaceId).teardownBufferMinutes)) = false

/-- Live slots of different requesters in one room are separated by the larger of the two buffers
that are stored between them. -/
def Separated (db : BookingDb) : Prop :=
  ∀ s ∈ db.slots.rows, ∀ t ∈ db.slots.rows, s.spaceId = t.spaceId → s.status.blocksRoom = true →
    t.status.blocksRoom = true → requesterOf db s ≠ requesterOf db t → s.startAt ≤ t.startAt →
      s.endAt + 60000 * (max s.teardownBufferMinutes t.setupBufferMinutes : Nat) ≤ t.startAt

/-- What holds along a sequence of creations. -/
structure CollapseLaw (rooms : Nat → TargetSpace) (db : BookingDb) (candidates : List Candidate) :
    Prop where
  preCheckExact : ∀ pre c post, candidates = pre ++ c :: post →
    IsNew (run (createOne rooms) db pre) c →
      (preCheck (run (createOne rooms) db pre) c.spaceId
          (c.newSlot rooms (run (createOne rooms) db pre)).timeRange.1
          (c.newSlot rooms (run (createOne rooms) db pre)).timeRange.2 [] ≠ [] ↔
        create rooms (run (createOne rooms) db pre) c = .error .slotConflict)
  touchingAccepted : ∀ pre c post, candidates = pre ++ c :: post →
    IsNew (run (createOne rooms) db pre) c → KeepsClear rooms (run (createOne rooms) db pre) c →
      ∃ db', create rooms (run (createOne rooms) db pre) c = .ok db'
  separated : ∀ pre post, candidates = pre ++ post → Separated (run (createOne rooms) db pre)

/-- The neighbours that the candidate touches were stored without the buffer on that side. -/
def NeighboursCollapsed (db : BookingDb) (c : Candidate) : Prop :=
  ∀ s, Touches db c s → (s.endAt = c.startAt → s.teardownBufferMinutes = 0) ∧
    (s.startAt = c.endAt → s.setupBufferMinutes = 0)

/-! ## The buffers -/

section

variable {rooms : Nat → TargetSpace} {db : BookingDb} {c : Candidate}

theorem collapse_le (db : BookingDb) (requesterPersonId : Nat) (startAt endAt : Int) (slots : List SlotRow)
    (buffers : Nat × Nat) :
    (slots.foldl (collapse db requesterPersonId startAt endAt) buffers).1 ≤ buffers.1 ∧
      (slots.foldl (collapse db requesterPersonId startAt endAt) buffers).2 ≤ buffers.2 := by
  induction slots generalizing buffers with
  | nil => exact ⟨Nat.le_refl _, Nat.le_refl _⟩
  | cons s slots ih =>
    have hone : (collapse db requesterPersonId startAt endAt buffers s).1 ≤ buffers.1 ∧
        (collapse db requesterPersonId startAt endAt buffers s).2 ≤ buffers.2 := by
      unfold collapse
      split_ifs <;> simp
    obtain ⟨hsetup, hteardown⟩ := ih (collapse db requesterPersonId startAt endAt buffers s)
    rw [List.foldl_cons]
    exact ⟨Nat.le_trans hsetup hone.1, Nat.le_trans hteardown hone.2⟩

theorem buffers_le (rooms : Nat → TargetSpace) (db : BookingDb) (c : Candidate) :
    (c.buffers rooms db).1 ≤ (rooms c.spaceId).setupBufferMinutes ∧
      (c.buffers rooms db).2 ≤ (rooms c.spaceId).teardownBufferMinutes := by
  unfold Candidate.buffers snapshotBuffersForBooking
  split
  · exact ⟨Nat.zero_le _, Nat.zero_le _⟩
  · exact collapse_le db _ _ _ _ _

variable {s : SlotRow}

theorem collapse_zero {requesterPersonId : Nat} (startAt endAt : Int) {slots : List SlotRow}
    (hs : s ∈ slots) (hsame : requesterOf db s = some requesterPersonId) (buffers : Nat × Nat) :
    (meets s.endAt startAt = true →
        (slots.foldl (collapse db requesterPersonId startAt endAt) buffers).1 = 0) ∧
      (meets s.startAt endAt = true →
        (slots.foldl (collapse db requesterPersonId startAt endAt) buffers).2 = 0) := by
  induction slots generalizing buffers with
  | nil => exact absurd hs List.not_mem_nil
  | cons t slots ih =>
    rw [List.foldl_cons]
    rcases List.mem_cons.mp hs with rfl | hs
    · have hle := collapse_le db requesterPersonId startAt endAt slots
        (collapse db requesterPersonId startAt endAt buffers s)
      constructor
      · intro hmeets
        have hzero : (collapse db requesterPersonId startAt endAt buffers s).1 = 0 := by
          simp [collapse, hsame, hmeets]
        omega
      · intro hmeets
        have hzero : (collapse db requesterPersonId startAt endAt buffers s).2 = 0 := by
          simp [collapse, hsame, hmeets]
        omega
    · exact ih hs _

theorem meets_self (a : Int) : meets a a = true := by
  simp [meets, tolerance]

theorem buffers_of_touches (rooms : Nat → TargetSpace) (h : Touches db c s) :
    (s.endAt = c.startAt → (c.buffers rooms db).1 = 0) ∧
      (s.startAt = c.endAt → (c.buffers rooms db).2 = 0) := by
  obtain ⟨hs, hspace, hlive, hsame, htouches⟩ := h
  unfold Candidate.buffers snapshotBuffersForBooking
  split
  · exact ⟨fun _ => rfl, fun _ => rfl⟩
  · have hprobe : s ∈ (db.slots.rows.filter fun s =>
        s.spaceId == c.spaceId && s.status.blocksRoom &&
          (meets s.endAt c.startAt || meets s.startAt c.endAt)).filter fun s =>
            !([] : List Nat).contains s.id := by
      refine List.mem_filter.mpr ⟨List.mem_filter.mpr ⟨hs, ?_⟩, rfl⟩
      rcases htouches with hend | hstart
      · simp [hspace, hlive, hend, meets_self]
      · simp [hspace, hlive, hstart, meets_self]
    have hzero := collapse_zero c.startAt c.endAt hprobe hsame
      ((rooms c.spaceId).setupBufferMinutes, (rooms c.spaceId).teardownBufferMinutes)
    constructor
    · intro hend
      exact hzero.1 (by rw [hend]; exact meets_self _)
    · intro hstart
      exact hzero.2 (by rw [hstart]; exact meets_self _)

/-! ## The constraint -/

theorem overlaps_iff (s t : SlotRow) :
    s.overlaps t = true ↔
      s.spaceId = t.spaceId ∧ s.status.blocksRoom = true ∧ t.status.blocksRoom = true ∧
        s.startAt - 60000 * s.setupBufferMinutes < t.endAt + 60000 * t.teardownBufferMinutes ∧
        t.startAt - 60000 * t.setupBufferMinutes < s.endAt + 60000 * s.teardownBufferMinutes := by
  simp only [SlotRow.overlaps, Bool.and_eq_true, beq_iff_eq, decide_eq_true_eq, and_assoc]
  rfl

theorem overlaps_comm (s t : SlotRow) : s.overlaps t = t.overlaps s := by
  rw [Bool.eq_iff_iff, overlaps_iff, overlaps_iff]
  constructor
  · rintro ⟨hspace, hs, ht, hst, hts⟩
    exact ⟨hspace.symm, ht, hs, hts, hst⟩
  · rintro ⟨hspace, ht, hs, hts, hst⟩
    exact ⟨hspace.symm, hs, ht, hst, hts⟩

/-- What the constraints of the table give. -/
structure SlotsKept (slots : Table SlotRow) : Prop where
  apart : hasOverlap slots = false
  window : ∀ s ∈ slots.rows, s.startAt < s.endAt

theorem SlotsKept.not_overlaps {slots : Table SlotRow} (h : SlotsKept slots) {t : SlotRow}
    (hs : s ∈ slots.rows) (ht : t ∈ slots.rows) (hne : s.id ≠ t.id) : s.overlaps t = false := by
  rw [Bool.eq_false_iff]
  intro hoverlaps
  have hany : hasOverlap slots = true := List.any_eq_true.mpr
    ⟨s, hs, List.any_eq_true.mpr ⟨t, ht, by simp [hne, hoverlaps]⟩⟩
  rw [h.apart] at hany
  cases hany

theorem hasOverlap_append {slots slots' : Table SlotRow} {slot : SlotRow} (h : SlotsKept slots)
    (hrows : slots'.rows = slots.rows ++ [slot]) (hfresh : slots.get? slot.id = none) :
    hasOverlap slots' = slots.rows.any fun s => s.overlaps slot := by
  have hne : ∀ s ∈ slots.rows, s.id ≠ slot.id := fun s hs => Table.get?_eq_none.mp hfresh s hs
  rw [Bool.eq_iff_iff]
  simp only [hasOverlap, List.any_eq_true, hrows, List.mem_append, List.mem_singleton,
    Bool.and_eq_true, bne_iff_ne]
  constructor
  · rintro ⟨s, hs | rfl, t, ht | rfl, hid, hoverlaps⟩
    · rw [h.not_overlaps hs ht hid] at hoverlaps
      cases hoverlaps
    · exact ⟨s, hs, hoverlaps⟩
    · exact ⟨t, ht, by rwa [overlaps_comm]⟩
    · exact absurd rfl hid
  · rintro ⟨s, hs, hoverlaps⟩
    exact ⟨s, .inl hs, slot, .inr rfl, hne s hs, hoverlaps⟩

theorem insertCandidate_eq (h : SlotsKept db.slots) (hnew : IsNew db c) (buffers : Nat × Nat) :
    (insertCandidate db c (c.slot buffers) = .error .slotConflict ∧
        (db.slots.rows.any fun s => s.overlaps (c.slot buffers)) = true) ∨
      ∃ db', insertCandidate db c (c.slot buffers) = .ok db' ∧
        (db.slots.rows.any fun s => s.overlaps (c.slot buffers)) = false ∧
        db'.slots.rows = db.slots.rows ++ [c.slot buffers] ∧ hasOverlap db'.slots = false := by
  obtain ⟨bookings, hbookings, _⟩ := Table.insert?_of_fresh (r := c.booking) hnew.booking
  obtain ⟨slots, hslots, hrows⟩ := Table.insert?_of_fresh (r := c.slot buffers) hnew.slot
  have hoverlap := hasOverlap_append h hrows hnew.slot
  unfold insertCandidate
  rw [if_neg (Int.not_le.mpr hnew.window), hbookings, hslots]
  cases hany : db.slots.rows.any fun s => s.overlaps (c.slot buffers) with
  | true =>
    rw [hany] at hoverlap
    exact .inl ⟨if_pos hoverlap, rfl⟩
  | false =>
    rw [hany] at hoverlap
    refine .inr ⟨_, if_neg (by rw [hoverlap]; exact Bool.false_ne_true), rfl, hrows, hoverlap⟩

theorem preCheck_ne_nil (buffers : Nat × Nat) :
    preCheck db c.spaceId (c.slot buffers).timeRange.1 (c.slot buffers).timeRange.2 [] ≠ [] ↔
      (db.slots.rows.any fun s => s.overlaps (c.slot buffers)) = true := by
  have hcond : ∀ s : SlotRow, (s.spaceId == c.spaceId && s.status.blocksRoom &&
      decide (s.timeRange.1 < (c.slot buffers).timeRange.2) &&
        decide ((c.slot buffers).timeRange.1 < s.timeRange.2)) = s.overlaps (c.slot buffers) := by
    intro s
    rw [SlotRow.overlaps, show (c.slot buffers).status.blocksRoom = true from c.status_blocksRoom,
      show (c.slot buffers).spaceId = c.spaceId from rfl, Bool.and_true]
  unfold preCheck
  simp only [hcond]
  constructor
  · intro hne
    obtain ⟨r, hr⟩ := List.exists_mem_of_ne_nil _ hne
    obtain ⟨s, hs, _⟩ := List.mem_map.mp (List.mem_filter.mp hr).1
    obtain ⟨hmem, hoverlaps⟩ := List.mem_filter.mp hs
    exact List.any_eq_true.mpr ⟨s, hmem, hoverlaps⟩
  · intro hany
    obtain ⟨s, hmem, hoverlaps⟩ := List.any_eq_true.mp hany
    refine List.ne_nil_of_mem (List.mem_filter.mpr ⟨List.mem_map.mpr
      ⟨s, List.mem_filter.mpr ⟨hmem, hoverlaps⟩, rfl⟩, rfl⟩)

/-! ## One creation -/

theorem SlotsKept.createOne (h : SlotsKept db.slots) (rooms : Nat → TargetSpace) (c : Candidate) :
    SlotsKept (createOne rooms db c).slots := by
  unfold Prequest.Booking.createOne create insertCandidate
  by_cases hwindow : c.endAt ≤ c.startAt
  · rw [if_pos hwindow]
    exact h
  · rw [if_neg hwindow]
    cases hbookings : db.bookings.insert? c.booking with
    | none => exact h
    | some bookings =>
      cases hslots : db.slots.insert? (c.newSlot rooms db) with
      | none => exact h
      | some slots =>
        cases hoverlap : hasOverlap slots with
        | true =>
          simp only [hoverlap, if_true]
          exact h
        | false =>
          simp only [hoverlap, Bool.false_eq_true, if_false]
          refine ⟨hoverlap, fun s hs => ?_⟩
          rw [(Table.insert?_eq_some hslots).1] at hs
          rcases List.mem_append.mp hs with hs | hs
          · exact h.window s hs
          · obtain rfl := List.mem_singleton.mp hs
            exact Int.not_le.mp hwindow

theorem SlotsKept.run (h : SlotsKept db.slots) (rooms : Nat → TargetSpace)
    (candidates : List Candidate) :
    SlotsKept (Lib.run (Prequest.Booking.createOne rooms) db candidates).slots := by
  induction candidates generalizing db with
  | nil => exact h
  | cons c candidates ih => exact ih (h.createOne rooms c)

theorem SlotsKept.separated (h : SlotsKept db.slots) : Separated db := by
  intro s hs t ht hspace hslive htlive hdiffer hfirst
  have hid : s.id ≠ t.id := fun heq => hdiffer (by rw [db.slots.eq_of_key_eq hs ht heq])
  have hnot := h.not_overlaps hs ht hid
  have hs := h.window s hs
  have ht := h.window t ht
  rw [Bool.eq_false_iff] at hnot
  refine Int.not_lt.mp fun hclose => hnot ((overlaps_iff s t).mpr ?_)
  exact ⟨hspace, hslive, htlive, by omega, by omega⟩

/-- A candidate that keeps clear of the slots it does not touch meets a slot exactly when a
neighbour has kept the buffer on its side. -/
theorem overlaps_newSlot_iff (h : SlotsKept db.slots) (hnew : IsNew db c)
    (hclear : KeepsClear rooms db c) :
    (db.slots.rows.any fun s => s.overlaps (c.newSlot rooms db)) = false ↔
      NeighboursCollapsed db c := by
  rw [List.any_eq_false]
  constructor
  · intro hnone s htouches
    have hwindow := h.window s htouches.1
    have hnewWindow := hnew.window
    obtain ⟨hsetup, hteardown⟩ := buffers_of_touches rooms htouches
    have hnot := hnone s htouches.1
    obtain ⟨_, hspace, hlive, _, _⟩ := htouches
    rw [overlaps_iff] at hnot
    constructor
    · intro hend
      have hsetup := hsetup hend
      refine Nat.le_zero.mp (Nat.not_lt.mp fun hkept => hnot ?_)
      refine ⟨hspace, hlive, c.status_blocksRoom, ?_, ?_⟩ <;>
        simp only [Candidate.newSlot, Candidate.slot, hsetup] <;> omega
    · intro hstart
      have hteardown := hteardown hstart
      refine Nat.le_zero.mp (Nat.not_lt.mp fun hkept => hnot ?_)
      refine ⟨hspace, hlive, c.status_blocksRoom, ?_, ?_⟩ <;>
        simp only [Candidate.newSlot, Candidate.slot, hteardown] <;> omega
  · intro hcollapsed s hs hoverlaps
    have hwindow := h.window s hs
    have hnewWindow := hnew.window
    have hle := buffers_le rooms db c
    obtain ⟨hspace, hlive, _, hbefore, hafter⟩ := (overlaps_iff _ _).mp hoverlaps
    simp only [Candidate.newSlot, Candidate.slot] at hbefore hafter
    by_cases htouches : Touches db c s
    · obtain ⟨hteardown, hsetup⟩ := hcollapsed s htouches
      obtain ⟨hzeroSetup, hzeroTeardown⟩ := buffers_of_touches rooms htouches
      rcases htouches.2.2.2.2 with hend | hstart
      · rw [hteardown hend, hzeroSetup hend] at hafter
        omega
      · rw [hsetup hstart, hzeroTeardown hstart] at hbefore
        omega
    · have hfull := hclear s hs htouches
      rw [Bool.eq_false_iff] at hfull
      refine hfull ((overlaps_iff _ _).mpr ⟨hspace, hlive, c.status_blocksRoom, ?_, ?_⟩) <;>
        simp only [Candidate.slot] <;> omega

/-! ## The law holds exactly on the condition -/

/-- The check is exact and bookings of different requesters are kept apart in every run; a touching
candidate is accepted exactly when its neighbours were stored without the buffer between them. -/
theorem collapseLaw_iff (h : SlotsKept db.slots) (rooms : Nat → TargetSpace)
    (candidates : List Candidate) :
    CollapseLaw rooms db candidates ↔
      ∀ pre c post, candidates = pre ++ c :: post →
        IsNew (run (createOne rooms) db pre) c → KeepsClear rooms (run (createOne rooms) db pre) c →
          NeighboursCollapsed (run (createOne rooms) db pre) c := by
  constructor
  · intro hlaw pre c post hsplit hnew hclear
    have hkept := h.run rooms pre
    obtain ⟨db', hok⟩ := hlaw.touchingAccepted pre c post hsplit hnew hclear
    rcases insertCandidate_eq hkept hnew (c.buffers rooms (run (createOne rooms) db pre)) with
      ⟨herror, _⟩ | ⟨_, _, hany, _⟩
    · rw [create, Candidate.newSlot, herror] at hok
      cases hok
    · exact (overlaps_newSlot_iff hkept hnew hclear).mp hany
  · intro hcollapsed
    refine ⟨?_, ?_, ?_⟩
    · intro pre c post hsplit hnew
      have hkept := h.run rooms pre
      rw [Candidate.newSlot, preCheck_ne_nil]
      rcases insertCandidate_eq hkept hnew (c.buffers rooms (run (createOne rooms) db pre)) with
        ⟨herror, hany⟩ | ⟨db', hok, hany, _⟩
      · rw [create, Candidate.newSlot, herror, hany]
        simp
      · rw [create, Candidate.newSlot, hok, hany]
        simp
    · intro pre c post hsplit hnew hclear
      have hkept := h.run rooms pre
      have hnone := (overlaps_newSlot_iff hkept hnew hclear).mpr
        (hcollapsed pre c post hsplit hnew hclear)
      rcases insertCandidate_eq hkept hnew (c.buffers rooms (run (createOne rooms) db pre)) with
        ⟨_, hany⟩ | ⟨db', hok, _⟩
      · rw [Candidate.newSlot, hany] at hnone
        cases hnone
      · exact ⟨db', hok⟩
    · intro pre post _
      exact (h.run rooms pre).separated

end

/-! ## Back to back -/

/-- Nothing is booked yet. -/
def emptyDb : BookingDb where
  bookings := Table.empty
  slots := Table.empty
  approvals := Table.empty

/-- A room with a quarter of an hour before and after each meeting. -/
def bufferedRoom (_ : Nat) : TargetSpace where
  setupBufferMinutes := 15
  teardownBufferMinutes := 15

def meeting (id requesterPersonId : Nat) (hour : Int) : Candidate where
  bookingId := id
  slotId := id
  requesterPersonId := requesterPersonId
  spaceId := 3
  startAt := hour * 3600000
  endAt := (hour + 1) * 3600000

/-- The second of two meetings of one person is refused: the first one keeps its teardown. -/
theorem backToBack_refused :
    ¬CollapseLaw bufferedRoom emptyDb [meeting 1 7 9, meeting 2 7 10] := by
  intro hlaw
  have hfirst : (run (createOne bufferedRoom) emptyDb [meeting 1 7 9]).slots.rows =
      [(meeting 1 7 9).slot (15, 15)] := by decide
  have hnew : IsNew (run (createOne bufferedRoom) emptyDb [meeting 1 7 9]) (meeting 2 7 10) :=
    ⟨by decide, by decide, by decide⟩
  obtain ⟨db', hok⟩ := hlaw.touchingAccepted [meeting 1 7 9] (meeting 2 7 10) [] rfl hnew (by
    intro s hs hnot
    rw [hfirst] at hs
    obtain rfl := List.mem_singleton.mp hs
    exact absurd ⟨by rw [hfirst]; exact hs, rfl, rfl, by decide, .inl (by decide)⟩ hnot)
  have hrefused : (create bufferedRoom (run (createOne bufferedRoom) emptyDb [meeting 1 7 9])
      (meeting 2 7 10)).toOption = none := by decide
  rw [hok] at hrefused
  cases hrefused

/-- In a room without buffers both are accepted. -/
theorem backToBack_accepted :
    CollapseLaw (fun _ => {}) emptyDb [meeting 1 7 9, meeting 2 7 10] := by
  refine (collapseLaw_iff ⟨rfl, fun s hs => absurd hs List.not_mem_nil⟩ _ _).mpr ?_
  intro pre c post hsplit _ _ s htouches
  have hs := htouches.1
  match pre, hsplit with
  | [], _ => exact absurd hs List.not_mem_nil
  | [_], hsplit =>
    obtain ⟨rfl, _⟩ := List.cons.inj hsplit
    have hfirst : (run (createOne fun _ => {}) emptyDb [meeting 1 7 9]).slots.rows =
        [(meeting 1 7 9).slot (0, 0)] := by decide
    rw [hfirst] at hs
    obtain rfl := List.mem_singleton.mp hs
    exact ⟨fun _ => rfl, fun _ => rfl⟩
  | _ :: _ :: pre, hsplit => simp at hsplit

end Prequest.Booking
