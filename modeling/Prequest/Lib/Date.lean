import Prequest.Lib.Calendar

/-!
# Dates as the language has them

A `Date` holds a time, or is invalid once a calculation has left the range of 100 million days
around the start of 1970. `none` is the invalid date: it stays invalid, and no comparison with it
holds.

* `monthLength`, `monthDate`: the days of a month, and a day of it that is not past its end.
* `monthOf_eq`, `getUTCDate_monthDate`: the month and the day of the month of such a date.
-/

namespace Prequest.Lib.Calendar

abbrev JsDate := Option Int

def maxTime : Int := 8640000000000000

/-- The time of a new date, which is invalid out of the range. -/
def timeClip (t : Int) : JsDate := if -maxTime ≤ t ∧ t ≤ maxTime then some t else none

/-- Whether a time is one of a date. -/
def inRange (t : Int) : Bool := decide (-maxTime ≤ t) && decide (t ≤ maxTime)

theorem timeClip_eq (t : Int) : timeClip t = if inRange t then some t else none := by
  unfold timeClip inRange
  simp only [Bool.and_eq_true, decide_eq_true_eq]

variable {t : Int}

theorem inRange_iff : inRange t = true ↔ -maxTime ≤ t ∧ t ≤ maxTime := by
  simp [inRange]

theorem timeClip_of_inRange (h : inRange t = true) : timeClip t = some t := by
  rw [timeClip_eq, if_pos h]

theorem timeClip_of_not (h : ¬inRange t = true) : timeClip t = none := by
  rw [timeClip_eq, if_neg h]

/-- A setter, which moves a date by `f`. -/
def moved (f : Int → Int) (d : JsDate) : JsDate := d.bind fun t => timeClip (f t)

@[simp] theorem moved_none (f : Int → Int) : moved f none = none := rfl

@[simp] theorem moved_some (f : Int → Int) (t : Int) : moved f (some t) = timeClip (f t) := rfl

/-- A date that is past the range stays past it when it is moved on. -/
theorem moved_timeClip {f : Int → Int} (ht : -maxTime ≤ t) (hle : t ≤ f t) :
    moved f (timeClip t) = timeClip (f t) := by
  by_cases h : inRange t = true
  · rw [timeClip_of_inRange h, moved_some]
  · rw [inRange_iff] at h
    have hnext : ¬inRange (f t) = true := by
      rw [inRange_iff]
      omega
    rw [timeClip_of_not (by rwa [inRange_iff]), timeClip_of_not hnext, moved_none]

/-- The years from 0 to 99 stand for those from 1900 to 1999. -/
def fullYear (year : Int) : Int := if 0 ≤ year ∧ year ≤ 99 then 1900 + year else year

/-- `Date.UTC`, with the time of day in milliseconds. -/
def dateUTC (year monthIndex date clock : Int) : JsDate :=
  timeClip (msPerDay * (monthStart (12 * fullYear year + monthIndex) + date - 1) + clock)

/-! ## Days of a month -/

def monthLength (m : Int) : Int := monthStart (m + 1) - monthStart m

theorem one_le_monthLength (m : Int) : 1 ≤ monthLength m := by
  have := monthStart_succ m
  unfold monthLength
  omega

theorem monthOf_eq {m d : Int} (hfirst : monthStart m ≤ d) (hlast : d < monthStart (m + 1)) :
    monthOf d = m := by
  have hle := le_monthOf hfirst
  rcases Int.lt_or_eq_of_le hle with hlt | heq
  · have hspec := (monthOf_spec d).1
    rcases Int.lt_or_eq_of_le (show m + 1 ≤ monthOf d by omega) with hlt' | heq'
    · have := monthStart_lt hlt'
      omega
    · rw [← heq'] at hspec
      omega
  · exact heq.symm

theorem getUTCDate_le (t : Int) : getUTCDate t ≤ monthLength (monthOf (day t)) := by
  have := (monthOf_spec (day t)).2
  unfold getUTCDate monthLength
  omega

/-- A day of a month, or its last one, at the time of day of `t`. -/
def monthDate (t m date : Int) : Int :=
  msPerDay * (monthStart m + min date (monthLength m) - 1) + timeWithinDay t

section

variable {t m date : Int}

theorem day_monthDate : day (monthDate t m date) = monthStart m + min date (monthLength m) - 1 :=
  day_add _ (timeWithinDay_nonneg t) (timeWithinDay_lt t)

theorem timeWithinDay_monthDate : timeWithinDay (monthDate t m date) = timeWithinDay t :=
  timeWithinDay_add _ (timeWithinDay_nonneg t) (timeWithinDay_lt t)

theorem monthOf_monthDate (hdate : 1 ≤ date) : monthOf (day (monthDate t m date)) = m := by
  have hlength := one_le_monthLength m
  rw [day_monthDate]
  refine monthOf_eq ?_ ?_
  · omega
  · unfold monthLength at hlength ⊢
    omega

theorem getUTCDate_monthDate (hdate : 1 ≤ date) :
    getUTCDate (monthDate t m date) = min date (monthLength m) := by
  unfold getUTCDate
  rw [monthOf_monthDate hdate, day_monthDate]
  omega

theorem monthDate_self (t : Int) : monthDate t (monthOf (day t)) (getUTCDate t) = t := by
  have hsplit := day_timeWithinDay t
  have hday : monthStart (monthOf (day t)) + getUTCDate t - 1 = day t := by
    unfold getUTCDate
    omega
  unfold monthDate
  rw [Int.min_eq_left (getUTCDate_le t), hday]
  exact hsplit

theorem lt_monthDate {s : Int} (hm : monthOf (day s) < m) (hdate : 1 ≤ date) :
    s < monthDate t m date := by
  have hlength := one_le_monthLength m
  have hlast := (monthOf_spec (day s)).2
  have hstart : monthStart (monthOf (day s) + 1) ≤ monthStart m := by
    rcases Int.lt_or_eq_of_le (show monthOf (day s) + 1 ≤ m by omega) with hlt | heq
    · exact Int.le_of_lt (monthStart_lt hlt)
    · rw [heq]
  have hsplit := day_timeWithinDay s
  have hclock := timeWithinDay_lt s
  have hpos := timeWithinDay_nonneg t
  unfold monthDate
  unfold msPerDay at hsplit hclock ⊢
  omega

end

theorem dateUTC_zero (year monthIndex : Int) :
    (dateUTC year (monthIndex + 1) 0 0).map getUTCDate =
      if inRange (msPerDay * (monthStart (12 * fullYear year + monthIndex + 1) - 1)) then
        some (monthLength (12 * fullYear year + monthIndex))
      else none := by
  have htime : msPerDay * (monthStart (12 * fullYear year + (monthIndex + 1)) + 0 - 1) + 0 =
      msPerDay * (monthStart (12 * fullYear year + monthIndex + 1) - 1) := by
    rw [Int.add_zero, Int.add_zero, ← Int.add_assoc]
  unfold dateUTC
  rw [htime, timeClip_eq]
  split
  · generalize 12 * fullYear year + monthIndex = m
    have hlength := one_le_monthLength m
    have hday : day (msPerDay * (monthStart (m + 1) - 1)) = monthStart (m + 1) - 1 := by
      have := day_add (monthStart (m + 1) - 1) (Int.le_refl 0) (by decide)
      rwa [Int.add_zero] at this
    have hmonth : monthOf (monthStart (m + 1) - 1) = m := by
      unfold monthLength at hlength
      exact monthOf_eq (by omega) (by omega)
    rw [Option.map_some]
    unfold getUTCDate
    rw [hday, hmonth]
    unfold monthLength
    congr 1
    omega
  · rfl

end Prequest.Lib.Calendar
