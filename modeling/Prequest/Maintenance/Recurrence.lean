import Mathlib.Logic.Function.Iterate
import Prequest.Lib.Date

/-!
# Recurrence of maintenance plans

A plan recurs every so many days, weeks, months or years. One advance keeps the day of the month,
or takes the last day of a shorter month.

* `lt_step`: a step goes forward.
-/

namespace Prequest.Maintenance

open Prequest.Lib.Calendar

/-! ## The functions -/

inductive RecurrenceUnit where
  | day
  | week
  | month
  | year
  deriving DecidableEq, Repr

def lastDayOfMonthUtc (year monthIndex : Int) : Option Int :=
  (dateUTC year (monthIndex + 1) 0 0).map getUTCDate

def addCalendarMonths (from' : JsDate) (months : Int) : JsDate := do
  let t ← from'
  let fromYear := monthOf (day t) / 12
  let fromMonth := monthOf (day t) % 12
  let fromDay := getUTCDate t
  let totalMonths := fromMonth + months
  let targetYear := fromYear + totalMonths / 12
  let normalisedTargetMonth := totalMonths % 12
  let lastDayOfTarget ← lastDayOfMonthUtc targetYear normalisedTargetMonth
  let clampedDay := min fromDay lastDayOfTarget
  dateUTC targetYear normalisedTargetMonth clampedDay (timeWithinDay t)

/-- `next.setUTCDate(next.getUTCDate() + days)`. -/
def addDays (from' : JsDate) (days : Int) : JsDate :=
  from'.bind fun t => timeClip (setUTCDate t (getUTCDate t + days))

def advanceRecurrence (from' : JsDate) (interval : Int) (unit : RecurrenceUnit) :
    Except String JsDate :=
  if interval ≤ 0 then
    .error s!"advanceRecurrence: interval must be a positive integer; got {interval}"
  else match unit with
  | .day => .ok (addDays from' interval)
  | .week => .ok (addDays from' (interval * 7))
  | .month => .ok (addCalendarMonths from' interval)
  | .year => .ok (addCalendarMonths from' (interval * 12))

/-- `cursor.getTime() <= now.getTime()`. -/
def notAfter (cursor : JsDate) (now : Int) : Bool := cursor.any fun t => decide (t ≤ now)

/-- The loop of `advanceToNextFuture`, with the iterations that are left. -/
def advanceLoop (interval : Int) (unit : RecurrenceUnit) (now : Int) :
    Nat → JsDate → Except String JsDate
  | left, cursor =>
      if notAfter cursor now then do
        let next ← advanceRecurrence cursor interval unit
        match left with
        | 0 => .error "advanceToNextFuture: exceeded the iterations"
        | left + 1 => advanceLoop interval unit now left next
      else .ok cursor

def defaultAdvanceCap : Nat := 4096

def advanceToNextFuture (from' : JsDate) (interval : Int) (unit : RecurrenceUnit) (now : Int)
    (maxIterations : Nat := defaultAdvanceCap) : Except String JsDate :=
  advanceLoop interval unit now maxIterations from'

/-- `ANCHOR_TIME_OF_DAY_UTC`, nine o'clock. -/
def anchorTimeOfDayUtc : Int := 9 * 3600000

def digitsOf (cs : List Char) : Option Int :=
  if cs.all Char.isDigit then
    some (cs.foldl (fun n c => 10 * n + ((c.toNat - '0'.toNat : Nat) : Int)) 0)
  else none

/-- The year, the month and the day of a `YYYY-MM-DD`. -/
def splitDate (anchorDate : String) : Option (Int × Int × Int) :=
  match anchorDate.toList with
  | [y₁, y₂, y₃, y₄, '-', m₁, m₂, '-', d₁, d₂] => do
      let year ← digitsOf [y₁, y₂, y₃, y₄]
      let month ← digitsOf [m₁, m₂]
      let date ← digitsOf [d₁, d₂]
      return (year, month, date)
  | _ => none

def parseAnchorDateToUtc (anchorDate : String) : Except String Int :=
  match splitDate anchorDate with
  | none => .error "parseAnchorDateToUtc: expected YYYY-MM-DD"
  | some (year, month, date) =>
      if month < 1 || 12 < month || date < 1 || 31 < date then
        .error "parseAnchorDateToUtc: out-of-range value"
      else match dateUTC year (month - 1) date anchorTimeOfDayUtc with
      | none => .error "parseAnchorDateToUtc: invalid calendar date"
      | some t =>
          if monthOf (day t) % 12 ≠ month - 1 ∨ getUTCDate t ≠ date then
            .error "parseAnchorDateToUtc: invalid calendar date"
          else .ok t

def computeInitialNextRunAt (anchorDate : String) (interval : Int) (unit : RecurrenceUnit)
    (now : Int) : Except String JsDate := do
  let anchorTs ← parseAnchorDateToUtc anchorDate
  if now < anchorTs then return some anchorTs
  else advanceToNextFuture (some anchorTs) interval unit now

/-! ## Cadences -/

structure Cadence where
  interval : Int
  unit : RecurrenceUnit
  pos : 0 < interval

namespace Cadence

variable (c : Cadence)

def days : Int := if c.unit = .week then c.interval * 7 else c.interval

def months : Int := if c.unit = .year then c.interval * 12 else c.interval

def inMonths : Bool := c.unit == .month || c.unit == .year

/-- The month that an advance goes to, with the years that `Date.UTC` takes for others. -/
def targetMonth (t : Int) : Int :=
  let target := monthOf (day t) + c.months
  12 * fullYear (target / 12) + target % 12

def step (t : Int) : Int :=
  if c.inMonths then monthDate t (c.targetMonth t) (getUTCDate t) else t + msPerDay * c.days

/-- An advance is a valid date. For months that is so when their last day is one, too. -/
def fits (t : Int) : Bool :=
  inRange (c.step t) &&
    (!c.inMonths || inRange (msPerDay * (monthStart (c.targetMonth t + 1) - 1)))

/-- `advanceRecurrence` of the cadence. -/
def advance (d : JsDate) : Except String JsDate := advanceRecurrence d c.interval c.unit

/-- `k` successive advances. -/
def advances : Nat → JsDate → Except String JsDate
  | 0, d => .ok d
  | k + 1, d => do
      let next ← advances k d
      c.advance next

end Cadence

theorem one_le_months (c : Cadence) : 1 ≤ c.months := by
  have := c.pos
  unfold Cadence.months
  split <;> omega

theorem one_le_days (c : Cadence) : 1 ≤ c.days := by
  have := c.pos
  unfold Cadence.days
  split <;> omega

theorem addDays_some (t days : Int) :
    addDays (some t) days =
      if inRange (t + msPerDay * days) then some (t + msPerDay * days) else none := by
  unfold addDays
  rw [Option.bind_some, setUTCDate_add, timeClip_eq]

theorem addCalendarMonths_some (t months : Int) :
    addCalendarMonths (some t) months =
      let target := monthOf (day t) + months
      let m := 12 * fullYear (target / 12) + target % 12
      if inRange (monthDate t m (getUTCDate t)) && inRange (msPerDay * (monthStart (m + 1) - 1)) then
        some (monthDate t m (getUTCDate t))
      else none := by
  have hyear : monthOf (day t) / 12 + (monthOf (day t) % 12 + months) / 12 =
      (monthOf (day t) + months) / 12 := by
    omega
  have hmonth : (monthOf (day t) % 12 + months) % 12 = (monthOf (day t) + months) % 12 := by
    omega
  show (lastDayOfMonthUtc _ _).bind _ = _
  simp only [hyear, hmonth]
  unfold lastDayOfMonthUtc
  rw [dateUTC_zero]
  split
  · rename_i hlast
    rw [Option.bind_some, hlast, Bool.and_true]
    exact timeClip_eq _
  · rename_i hlast
    rw [Bool.not_eq_true] at hlast
    rw [hlast, Bool.and_false]
    rfl

theorem advance_some (c : Cadence) (t : Int) :
    c.advance (some t) = .ok (if c.fits t then some (c.step t) else none) := by
  unfold Cadence.advance advanceRecurrence
  rw [if_neg (Int.not_le.mpr c.pos)]
  obtain ⟨interval, unit, pos⟩ := c
  cases unit with
  | day =>
    dsimp only
    rw [addDays_some]
    simp [Cadence.fits, Cadence.step, Cadence.inMonths, Cadence.days]
  | week =>
    dsimp only
    rw [addDays_some]
    simp [Cadence.fits, Cadence.step, Cadence.inMonths, Cadence.days]
  | month =>
    dsimp only
    rw [addCalendarMonths_some]
    rfl
  | year =>
    dsimp only
    rw [addCalendarMonths_some]
    rfl

theorem advance_none (c : Cadence) : c.advance none = .ok none := by
  unfold Cadence.advance advanceRecurrence
  rw [if_neg (Int.not_le.mpr c.pos)]
  obtain ⟨interval, unit, pos⟩ := c
  cases unit <;> rfl

theorem le_fullYear (year : Int) : year ≤ fullYear year := by
  unfold fullYear
  split <;> omega

section

variable (c : Cadence) (t : Int)

theorem lt_targetMonth : monthOf (day t) < c.targetMonth t := by
  have hmonths := one_le_months c
  have hyear := le_fullYear ((monthOf (day t) + c.months) / 12)
  unfold Cadence.targetMonth
  simp only
  omega

theorem lt_step : t < c.step t := by
  unfold Cadence.step
  split
  · exact lt_monthDate (lt_targetMonth c t) (one_le_getUTCDate t)
  · have := one_le_days c
    unfold msPerDay
    omega

theorem step_iterate_lt {j k : Nat} (h : j < k) : c.step^[j] t < c.step^[k] t := by
  induction h with
  | refl =>
    rw [Function.iterate_succ_apply']
    exact lt_step c _
  | step _ ih =>
    rw [Function.iterate_succ_apply']
    exact Int.lt_trans ih (lt_step c _)

theorem advances_some (k : Nat) : c.advances k (some t) =
      .ok (if ∀ j < k, c.fits (c.step^[j] t) = true then some (c.step^[k] t) else none) := by
  induction k with
  | zero =>
    rw [if_pos (fun j hj => absurd hj (Nat.not_lt_zero j))]
    rfl
  | succ k ih =>
    show (c.advances k (some t) >>= c.advance) = _
    rw [ih]
    show c.advance _ = _
    by_cases hall : ∀ j < k, c.fits (c.step^[j] t) = true
    · rw [if_pos hall, advance_some, ← Function.iterate_succ_apply' c.step k t]
      congr 1
      by_cases hfits : c.fits (c.step^[k] t) = true
      · rw [if_pos hfits, if_pos]
        intro j hj
        rcases Nat.lt_succ_iff_lt_or_eq.mp hj with hlt | rfl
        · exact hall j hlt
        · exact hfits
      · rw [if_neg hfits, if_neg]
        intro h
        exact hfits (h k (Nat.lt_succ_self k))
    · rw [if_neg hall, advance_none, if_neg]
      intro h
      exact hall fun j hj => h j (Nat.lt_succ_of_lt hj)

end

end Prequest.Maintenance
