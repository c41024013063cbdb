import Prequest.Booking.EditBooking
import Prequest.Recurrence.Expand

/-!
# Materializing a series

`materialize` books the occurrences of a series up to a horizon. It expands the rule of the series
from the start of the series' parent booking, leaves out the numbers that a booking of the series
has, and creates a booking for each other one, a hundred at most.

A creation runs the rules of the room and the services of the parent. What they make of an
occurrence is an input of the call; that the room must be free is not, for the bookings of the
series themselves take the room. The rule is expanded before anything is written, and an expansion
that throws or does not end leaves the call without a result.

* `tryOccurrence_cases`: an occurrence changes nothing, or adds a booking whose room was free.
-/

namespace Prequest.Recurrence

open Prequest.Lib Prequest.Booking

/-- The exceptions of a creation that the loop tells apart. -/
inductive OccurrenceError where
  | exclusionViolation
  | ruleDeny
  | reservationSlotConflict
  | partialFailure
  | compensationFailed
  | other
  deriving DecidableEq, Repr

/-- What becomes of a booking when the services of the parent are cloned to it: a booking whose
clone failed is deleted again, or stays when that fails too. -/
inductive CloneOutcome where
  | cloned
  | rolledBack (e : OccurrenceError)
  | stays (e : OccurrenceError)
  deriving DecidableEq, Repr

/-- The rows that a creation draws, and what the room's rules say about them. -/
structure Creation where
  bookingId : Nat
  slotId : Nat
  requiresApproval : Bool := false
  setupBufferMinutes : Nat := 0
  teardownBufferMinutes : Nat := 0
  clone : CloneOutcome := .cloned
  deriving DecidableEq, Repr

inductive CreateOutcome where
  | refused (e : OccurrenceError)
  | creates (c : Creation)
  deriving DecidableEq, Repr

/-- The arguments of a call, with the time it is made, what creations come to and the rounds of
`expand` that the process lives for. -/
structure MaterializeCall where
  throughDate : Option Int := none
  now : Int
  create : Int → CreateOutcome
  rounds : Nat

/-- `throughDate`, or 90 days from now. -/
def MaterializeCall.horizon (call : MaterializeCall) : Int :=
  call.throughDate.getD (call.now + 90 * 24 * 60 * 60 * 1000)

structure Master where
  booking : BookingRow
  slot : SlotRow
  deriving DecidableEq, Repr

def masterOf (db : BookingDb) (bookingId : Nat) : Option Master :=
  match db.bookings.get? bookingId, primarySlot db bookingId with
  | some booking, some slot => some ⟨booking, slot⟩
  | _, _ => none

/-- `Math.max(1, Math.round(…))` of the parent's minutes. -/
def Master.durationMinutes (master : Master) : Int :=
  max 1 ((2 * (master.slot.endAt - master.slot.startAt) + 60000) / 120000)

/-- The parent was cancelled or released, or its occurrence left out. -/
def Master.isDead (master : Master) : Bool :=
  master.slot.status == .cancelled || master.slot.status == .released ||
    master.booking.recurrenceSkipped

/-! ## One occurrence -/

def Creation.status (c : Creation) : BookingStatus :=
  if c.requiresApproval then .pendingApproval else .confirmed

def occurrenceBooking (seriesId : Nat) (master : Master) (startAt endAt : Int) (index : Nat)
    (c : Creation) : BookingRow where
  id := c.bookingId
  requesterPersonId := master.booking.requesterPersonId
  status := c.status
  locationId := master.slot.spaceId
  startAt := startAt
  endAt := endAt
  recurrenceSeriesId := some seriesId
  recurrenceIndex := some index
  hostPersonId := master.booking.hostPersonId

def occurrenceSlot (master : Master) (startAt endAt : Int) (c : Creation) : SlotRow where
  id := c.slotId
  bookingId := c.bookingId
  spaceId := master.slot.spaceId
  startAt := startAt
  endAt := endAt
  setupBufferMinutes := c.setupBufferMinutes
  teardownBufferMinutes := c.teardownBufferMinutes
  status := c.status
  attendeeCount := master.slot.attendeeCount
  attendeePersonIds := master.slot.attendeePersonIds

/-- `booking_slots_no_overlap`, for a new row. -/
def isTaken (slots : Table SlotRow) (slot : SlotRow) : Bool :=
  slots.rows.any fun s => s.overlaps slot

def insertOccurrence (db : BookingDb) (booking : BookingRow) (slot : SlotRow) :
    Except OccurrenceError BookingDb :=
  if isTaken db.slots slot then .error .exclusionViolation
  else match db.bookings.insert? booking, db.slots.insert? slot with
    | some bookings, some slots => .ok { db with bookings := bookings, slots := slots }
    | _, _ => .error .other

/-! ## The loop -/

structure LoopState where
  db : BookingDb
  created : List Nat := []
  skipped : Nat := 0
  sawUnexpectedFailure : Bool := false

/-- The `catch` of the loop. A taken room is expected, everything else is not. -/
def LoopState.fail (s : LoopState) (e : OccurrenceError) : LoopState :=
  { s with
    skipped := s.skipped + 1
    sawUnexpectedFailure := s.sawUnexpectedFailure || e != .exclusionViolation }

/-- The run of the loop: its call, the series and the parent booking. -/
structure LoopContext where
  call : MaterializeCall
  seriesId : Nat
  master : Master

def PER_TICK_CAP : Nat := 100

namespace LoopContext

variable (ctx : LoopContext)

/-- The body of the loop. `toISOString` throws for an invalid start or end. -/
def tryOccurrence (occ : Occurrence) (s : LoopState) : LoopState :=
  match occ.startAt, occ.endAt with
  | some startAt, some endAt =>
      match ctx.call.create startAt with
      | .refused e => s.fail e
      | .creates c =>
          match insertOccurrence s.db
              (occurrenceBooking ctx.seriesId ctx.master startAt endAt occ.index c)
              (occurrenceSlot ctx.master startAt endAt c) with
          | .error e => s.fail e
          | .ok db =>
              match c.clone with
              | .cloned => { s with db := db, created := s.created ++ [c.bookingId] }
              | .rolledBack e => s.fail e
              | .stays e => { s with db := db }.fail e
  | _, _ => s.fail .other

/-- The occurrence has a booking: its number is in use, or it is the parent of a series without
bookings. -/
def skips (existing : List Nat) (occ : Occurrence) : Bool :=
  existing.contains occ.index ||
    (occ.index == ctx.master.booking.recurrenceIndex.getD 0 && existing.isEmpty &&
      occ.startAt.any fun t => decide ((t - ctx.master.slot.startAt).natAbs < 1000))

def loop (existing : List Nat) : List Occurrence → LoopState → LoopState
  | [], s => s
  | occ :: occs, s =>
      if PER_TICK_CAP ≤ s.created.length then s
      else if ctx.skips existing occ then loop existing occs s
      else loop existing occs (ctx.tryOccurrence occ s)

end LoopContext

/-! ## The function -/

inductive MaterializeError where
  | seriesNotFound (seriesId : Nat)
  | masterNotFound (bookingId : Nat)
  /-- The `RangeError` of an invalid date. -/
  | invalidDate
  /-- The process ended before the loop over the dates did. -/
  | stillExpanding
  deriving DecidableEq, Repr

def existingIndices (db : BookingDb) (seriesId : Nat) : List Nat :=
  (db.bookings.rows.filter fun b => b.recurrenceSeriesId == some seriesId).filterMap
    BookingRow.recurrenceIndex

def SeriesRow.effectiveHorizon (series : SeriesRow) (horizon : Int) : Int :=
  match series.seriesEndAt with
  | some seriesEnd => if seriesEnd < horizon then seriesEnd else horizon
  | none => horizon

section

variable (calendars : Nat → List Int)

/-- `loadHolidayDates`. -/
def loadHolidayDates (calendarId : Option Nat) : List Int :=
  match calendarId with
  | some calendarId => calendars calendarId
  | none => []

def SeriesRow.expandArgs (series : SeriesRow) (master : Master) (horizon : Int) : ExpandArgs where
  rule := series.recurrenceRule
  anchorStart := master.slot.startAt
  durationMinutes := master.durationMinutes
  materializedThrough := horizon
  holidayDates := some (loadHolidayDates calendars series.holidayCalendarId)
  maxOccurrences := series.maxOccurrences

/-- The part of the function after its reads and the expansion. -/
def materializeRow (store : BookingStore) (series : SeriesRow) (master : Master)
    (call : MaterializeCall) (occurrences : List Occurrence) : BookingStore × List Nat × Nat :=
  let horizon := series.effectiveHorizon call.horizon
  let ctx : LoopContext := { call := call, seriesId := series.id, master := master }
  let s := ctx.loop (existingIndices store.db series.id) occurrences { db := store.db }
  let rows := if series.materializedThrough < horizon && !s.sawUnexpectedFailure then
      store.series.update (fun r => r.id == series.id)
        ⟨fun r => { r with materializedThrough := horizon }, fun _ => rfl⟩
    else store.series
  ({ store with db := s.db, series := rows }, s.created, s.skipped)

/-- `RecurrenceService.materialize`. `calendars` are the holidays of the calendars. -/
def materialize (store : BookingStore) (seriesId : Nat) (call : MaterializeCall) :
    Except MaterializeError (BookingStore × List Nat × Nat) :=
  match store.series.get? seriesId with
  | none => .error (.seriesNotFound seriesId)
  | some series =>
      match series.parentBookingId with
      | none => .error (.seriesNotFound seriesId)
      | some masterBookingId =>
          match masterOf store.db masterBookingId with
          | none => .error (.masterNotFound masterBookingId)
          | some master =>
              if master.isDead then .ok (store, [], 0)
              else
                match expand (series.expandArgs calendars master
                    (series.effectiveHorizon call.horizon)) call.rounds with
                | .returned occurrences =>
                    .ok (materializeRow store series master call occurrences)
                | .threw => .error .invalidDate
                | .running => .error .stillExpanding

end

/-! ## What a creation does -/

section

variable {db db' : BookingDb}

theorem insertOccurrence_ok {booking : BookingRow} {slot : SlotRow}
    (h : insertOccurrence db booking slot = .ok db') :
    isTaken db.slots slot = false ∧ db.bookings.get? booking.id = none ∧
      ∃ bookings slots, db' = { db with bookings := bookings, slots := slots } ∧
        bookings.rows = db.bookings.rows ++ [booking] ∧ slots.rows = db.slots.rows ++ [slot] := by
  unfold insertOccurrence at h
  split at h
  · cases h
  rename_i htaken
  split at h
  · rename_i bookings slots hbookings hslots
    cases h
    obtain ⟨hrows, hfresh⟩ := Table.insert?_eq_some hbookings
    obtain ⟨hslotRows, _⟩ := Table.insert?_eq_some hslots
    exact ⟨Bool.eq_false_iff.mpr htaken, hfresh, bookings, slots, rfl, hrows, hslotRows⟩
  · cases h

theorem tryOccurrence_cases (ctx : LoopContext) (occ : Occurrence) (s : LoopState) :
    (ctx.tryOccurrence occ s).db = s.db ∨
      ∃ booking slot, insertOccurrence s.db booking slot = .ok (ctx.tryOccurrence occ s).db := by
  unfold LoopContext.tryOccurrence
  split
  swap
  · exact .inl rfl
  split
  · exact .inl rfl
  split
  · exact .inl rfl
  rename_i hinsert
  split
  · exact .inr ⟨_, _, hinsert⟩
  · exact .inl rfl
  · exact .inr ⟨_, _, hinsert⟩

end

end Prequest.Recurrence
