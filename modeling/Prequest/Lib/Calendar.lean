import Mathlib.Data.Int.Order.Basic

/-!
# The UTC calendar

A time is a number of milliseconds since the start of 1970. Days count from
there as well, and months from the January of the year 0, so month `12 * y` is
the January of year `y`. The setters roll over as those of JavaScript do: the
31st of a month with 30 days is the first of the next one.

* `monthStart_lt`, `monthOf_spec`: months follow one another, and a day lies in its month.
* `setUTCDate_add`: adding to the day of the month adds whole days.
* `le_monthOf_addUTCMonths`: how far adding months goes, with the rolling over.
-/

namespace Prequest.Lib.Calendar

/-! ## Days and times -/

def msPerDay : Int := 86400000

section

variable (t : Int)

/-- The day of a time. -/
def day : Int := t / msPerDay

def timeWithinDay : Int := t % msPerDay

theorem day_timeWithinDay : msPerDay * day t + timeWithinDay t = t :=
  Int.mul_ediv_add_emod t msPerDay

theorem timeWithinDay_nonneg : 0 ≤ timeWithinDay t := Int.emod_nonneg t (by decide)

theorem timeWithinDay_lt : timeWithinDay t < msPerDay :=
  Int.emod_lt_of_pos t (by decide)

end

theorem day_add (d : Int) {r : Int} (hpos : 0 ≤ r) (hlt : r < msPerDay) :
    day (msPerDay * d + r) = d := by
  unfold msPerDay at hlt
  unfold day msPerDay
  omega

theorem timeWithinDay_add (d : Int) {r : Int} (hpos : 0 ≤ r) (hlt : r < msPerDay) :
    timeWithinDay (msPerDay * d + r) = r := by
  unfold msPerDay at hlt
  unfold timeWithinDay msPerDay
  omega

/-- The weekday of a time, from 0 for a Sunday. -/
def weekDay (t : Int) : Int := (day t + 4) % 7

/-! ## Years and months -/

def isLeap (y : Int) : Bool := y % 4 == 0 && (y % 100 != 0 || y % 400 == 0)

/-- The first day of a year. -/
def dayFromYear (y : Int) : Int :=
  365 * (y - 1970) + (y - 1969) / 4 - (y - 1901) / 100 + (y - 1601) / 400

/-- The year of a day: a guess from the mean length of a year, which is off by one at most. -/
def yearFromDay (d : Int) : Int :=
  let y := 1970 + 400 * d / 146097
  if d < dayFromYear y then y - 1 else if dayFromYear (y + 1) ≤ d then y + 1 else y

/-- The days of a common year before a month of it. -/
def daysBefore : Nat → Int
  | 0 => 0
  | 1 => 31
  | 2 => 59
  | 3 => 90
  | 4 => 120
  | 5 => 151
  | 6 => 181
  | 7 => 212
  | 8 => 243
  | 9 => 273
  | 10 => 304
  | _ => 334

/-- The first day of a month. -/
def monthStart (m : Int) : Int :=
  dayFromYear (m / 12) + daysBefore (m % 12).toNat + if isLeap (m / 12) && 2 ≤ m % 12 then 1 else 0

/-- The last of the first months of year `y` that starts by day `d`. -/
def monthIn (y d : Int) : Nat → Int
  | 0 => 12 * y
  | m + 1 => if monthStart (12 * y + (m + 1)) ≤ d then 12 * y + (m + 1) else monthIn y d m

/-- The month of a day. -/
def monthOf (d : Int) : Int := monthIn (yearFromDay d) d 11

theorem dayFromYear_succ (y : Int) :
    dayFromYear (y + 1) = dayFromYear y + 365 + if isLeap y then 1 else 0 := by
  unfold dayFromYear isLeap
  simp only [Bool.and_eq_true, Bool.or_eq_true, beq_iff_eq, bne_iff_ne]
  split <;> omega

theorem yearFromDay_spec (d : Int) :
    dayFromYear (yearFromDay d) ≤ d ∧ d < dayFromYear (yearFromDay d + 1) := by
  unfold yearFromDay
  simp only
  split
  · rename_i h
    refine ⟨?_, by rwa [Int.sub_add_cancel]⟩
    unfold dayFromYear at h ⊢
    omega
  · rename_i h
    split
    · rename_i h'
      refine ⟨h', ?_⟩
      unfold dayFromYear at h' ⊢
      omega
    · rename_i h'
      exact ⟨not_lt.mp h, not_le.mp h'⟩

theorem monthStart_year (y : Int) : monthStart (12 * y) = dayFromYear y := by
  have hyear : 12 * y / 12 = y := by omega
  have hmonth : 12 * y % 12 = 0 := by omega
  simp [monthStart, hyear, hmonth, daysBefore]

theorem daysBefore_succ : ∀ i < 11, daysBefore i + 28 ≤ daysBefore (i + 1) := by decide

theorem monthStart_succ (m : Int) : monthStart m + 28 ≤ monthStart (m + 1) := by
  obtain ⟨y, i, hi, rfl⟩ : ∃ (y : Int) (i : Nat), i < 12 ∧ m = 12 * y + i :=
    ⟨m / 12, (m % 12).toNat, by omega, by omega⟩
  have hyear : (12 * y + (i : Int)) / 12 = y := by omega
  have hmonth : (12 * y + (i : Int)) % 12 = i := by omega
  by_cases hlast : i = 11
  · subst hlast
    have hnext : 12 * y + ((11 : Nat) : Int) + 1 = 12 * (y + 1) := by omega
    rw [hnext, monthStart_year, dayFromYear_succ]
    unfold monthStart
    rw [hyear, hmonth]
    have hdec : (isLeap y && decide ((2 : Int) ≤ ((11 : Nat) : Int))) = isLeap y := by simp
    rw [hdec]
    show dayFromYear y + 334 + _ + 28 ≤ _
    omega
  · have hyear' : (12 * y + (i : Int) + 1) / 12 = y := by omega
    have hmonth' : (12 * y + (i : Int) + 1) % 12 = ((i + 1 : Nat) : Int) := by omega
    unfold monthStart
    rw [hyear, hmonth, hyear', hmonth', Int.toNat_natCast, Int.toNat_natCast]
    have hdays := daysBefore_succ i (by omega)
    have hleap : (if isLeap y && decide ((2 : Int) ≤ (i : Int)) then (1 : Int) else 0) ≤
        if isLeap y && decide ((2 : Int) ≤ ((i + 1 : Nat) : Int)) then 1 else 0 := by
      by_cases hi2 : 2 ≤ i
      · have h : (2 : Int) ≤ i := by omega
        have h' : (2 : Int) ≤ ((i + 1 : Nat) : Int) := by omega
        rw [decide_eq_true h, decide_eq_true h']
      · have h : ¬(2 : Int) ≤ i := by omega
        rw [decide_eq_false h, Bool.and_false, if_neg Bool.false_ne_true]
        split <;> decide
    omega

theorem monthStart_lt {m n : Int} (h : m < n) : monthStart m < monthStart n := by
  obtain ⟨k, rfl⟩ : ∃ k : Nat, n = m + 1 + k := ⟨(n - m - 1).toNat, by omega⟩
  induction k with
  | zero =>
    have hlen := monthStart_succ m
    have heq : m + 1 + ((0 : Nat) : Int) = m + 1 := by omega
    rw [heq]
    omega
  | succ k ih =>
    have hlen := monthStart_succ (m + 1 + k)
    have hlt := ih (by omega)
    have heq : m + 1 + ((k + 1 : Nat) : Int) = m + 1 + k + 1 := by omega
    rw [heq]
    omega

theorem monthOf_spec (d : Int) : monthStart (monthOf d) ≤ d ∧ d < monthStart (monthOf d + 1) := by
  have hin : ∀ m : Nat, monthStart (12 * yearFromDay d) ≤ d →
      d < monthStart (12 * yearFromDay d + m + 1) →
      monthStart (monthIn (yearFromDay d) d m) ≤ d ∧
        d < monthStart (monthIn (yearFromDay d) d m + 1) := by
    intro m hfirst
    induction m with
    | zero =>
      intro hlt
      exact ⟨hfirst, by simpa [monthIn] using hlt⟩
    | succ m ih =>
      intro hlt
      unfold monthIn
      split
      · rename_i h
        exact ⟨h, hlt⟩
      · rename_i h
        exact ih (by rw [Int.add_assoc]; exact not_le.mp h)
  obtain ⟨hfirst, hlast⟩ := yearFromDay_spec d
  refine hin 11 ?_ ?_
  · rwa [monthStart_year]
  · rw [← monthStart_year] at hlast
    have hnext : 12 * (yearFromDay d + 1) = 12 * yearFromDay d + ((11 : Nat) : Int) + 1 := by omega
    rwa [hnext] at hlast

theorem le_monthOf {m d : Int} (h : monthStart m ≤ d) : m ≤ monthOf d := by
  by_contra hlt
  have hend := (monthOf_spec d).2
  rcases Int.lt_or_eq_of_le (show monthOf d + 1 ≤ m by omega) with hlt' | heq
  · have := monthStart_lt hlt'
    omega
  · rw [heq] at hend
    omega

/-! ## Setters -/

/-- `getUTCDate`, the day of the month. -/
def getUTCDate (t : Int) : Int := day t - monthStart (monthOf (day t)) + 1

/-- `setUTCDate`. -/
def setUTCDate (t date : Int) : Int :=
  msPerDay * (monthStart (monthOf (day t)) + date - 1) + timeWithinDay t

/-- `setUTCMonth` with a month that is `n` months later. -/
def addUTCMonths (t n : Int) : Int :=
  msPerDay * (monthStart (monthOf (day t) + n) + getUTCDate t - 1) + timeWithinDay t

/-- `setUTCHours` with the hours, minutes, seconds and milliseconds of another time. -/
def setTimeOfDay (t clock : Int) : Int := msPerDay * day t + timeWithinDay clock

/-- The start of the Sunday of a week. -/
def startOfWeek (t : Int) : Int := msPerDay * day (setUTCDate t (getUTCDate t - weekDay t))

theorem setUTCDate_add (t n : Int) : setUTCDate t (getUTCDate t + n) = t + msPerDay * n := by
  have ht := day_timeWithinDay t
  unfold setUTCDate getUTCDate
  have hday : monthStart (monthOf (day t)) + (day t - monthStart (monthOf (day t)) + 1 + n) - 1 =
      day t + n := by omega
  rw [hday, Int.mul_add]
  omega

theorem day_setUTCDate (t date : Int) :
    day (setUTCDate t date) = monthStart (monthOf (day t)) + date - 1 :=
  day_add _ (timeWithinDay_nonneg t) (timeWithinDay_lt t)

@[simp] theorem timeWithinDay_setUTCDate (t date : Int) :
    timeWithinDay (setUTCDate t date) = timeWithinDay t :=
  timeWithinDay_add _ (timeWithinDay_nonneg t) (timeWithinDay_lt t)

@[simp] theorem timeWithinDay_addUTCMonths (t n : Int) :
    timeWithinDay (addUTCMonths t n) = timeWithinDay t :=
  timeWithinDay_add _ (timeWithinDay_nonneg t) (timeWithinDay_lt t)

theorem one_le_getUTCDate (t : Int) : 1 ≤ getUTCDate t := by
  have := (monthOf_spec (day t)).1
  unfold getUTCDate
  omega

theorem le_monthOf_addUTCMonths (t n : Int) :
    monthOf (day t) + n ≤ monthOf (day (addUTCMonths t n)) := by
  refine le_monthOf ?_
  have hday : day (addUTCMonths t n) = monthStart (monthOf (day t) + n) + getUTCDate t - 1 :=
    day_add _ (timeWithinDay_nonneg t) (timeWithinDay_lt t)
  have := one_le_getUTCDate t
  rw [hday]
  omega

theorem lt_addUTCMonths (t : Int) {n : Int} (hn : 0 < n) : t + msPerDay ≤ addUTCMonths t n := by
  have ht := day_timeWithinDay t
  have hlt := monthStart_lt (show monthOf (day t) < monthOf (day t) + n by omega)
  unfold addUTCMonths getUTCDate
  unfold msPerDay at ht ⊢
  omega

end Prequest.Lib.Calendar
