import Prequest.Maintenance.Drift

/-!
# Anchor dates

A definition of maintenance work starts on a date, given as `YYYY-MM-DD`. The parser
makes a time of its parts and takes the string for a date if the time is still in the
month and on the day that it names.

* `anchorLaw_of_recent`: from the year 100 on the accepted strings are those that denote a date, and
  they become nine o'clock on it.
-/

namespace Prequest.Maintenance

open Prequest.Lib.Calendar

def daysIn (leap : Bool) (month : Int) : Int :=
  if month = 2 then if leap then 29 else 28
  else if month = 4 ∨ month = 6 ∨ month = 9 ∨ month = 11 then 30
  else 31

/-- The string has the format `YYYY-MM-DD`, and the date exists. -/
structure Denotes (s : String) (year month date : Int) : Prop where
  format : splitDate s = some (year, month, date)
  months : 1 ≤ month ∧ month ≤ 12
  days : 1 ≤ date ∧ date ≤ daysIn (isLeap year) month

/-- The time is at `clock` on the date. -/
structure IsDate (t clock year month date : Int) : Prop where
  monthOf : monthOf (day t) = 12 * year + (month - 1)
  date : getUTCDate t = date
  clock : timeWithinDay t = clock

/-- The strings that are accepted are those that denote a date, and become `clock` on it. -/
structure AnchorLaw (clock : Int) (s : String) : Prop where
  accepts : (∃ t, parseAnchorDateToUtc s = .ok t) ↔ ∃ year month date, Denotes s year month date
  returns : ∀ t year month date, parseAnchorDateToUtc s = .ok t → Denotes s year month date →
    IsDate t clock year month date

/-! ## The days of a month -/

theorem daysBefore_daysIn : ∀ i < 11, ∀ leap : Bool,
    daysBefore (i + 1) + (if leap && decide (2 ≤ ((i + 1 : Nat) : Int)) then 1 else 0) =
      daysBefore i + (if leap && decide (2 ≤ (i : Int)) then 1 else 0) +
        daysIn leap (i + 1) := by decide

theorem daysBefore_december : ∀ leap : Bool,
    365 + (if leap then 1 else 0) =
      daysBefore 11 + (if leap && decide (2 ≤ ((11 : Nat) : Int)) then 1 else 0) +
        daysIn leap ((11 : Nat) + 1) := by decide

variable {year month : Int}

theorem monthLength_eq (hmonth : 1 ≤ month ∧ month ≤ 12) :
    monthLength (12 * year + (month - 1)) = daysIn (isLeap year) month := by
  obtain ⟨i, hi, rfl⟩ : ∃ i : Nat, i < 12 ∧ month = i + 1 :=
    ⟨(month - 1).toNat, by omega, by omega⟩
  have hyear : (12 * year + ((i : Int) + 1 - 1)) / 12 = year := by omega
  have hindex : (12 * year + ((i : Int) + 1 - 1)) % 12 = i := by omega
  unfold monthLength
  by_cases hlast : i = 11
  · subst hlast
    have hnext : 12 * year + (((11 : Nat) : Int) + 1 - 1) + 1 = 12 * (year + 1) := by omega
    rw [hnext, monthStart_year, dayFromYear_succ]
    have hdays := daysBefore_december (isLeap year)
    unfold monthStart
    rw [hyear, hindex, Int.toNat_natCast]
    omega
  · have hyear' : (12 * year + ((i : Int) + 1 - 1) + 1) / 12 = year := by omega
    have hindex' : (12 * year + ((i : Int) + 1 - 1) + 1) % 12 = ((i + 1 : Nat) : Int) := by omega
    have hdays := daysBefore_daysIn i (by omega) (isLeap year)
    unfold monthStart
    rw [hyear, hindex, hyear', hindex', Int.toNat_natCast, Int.toNat_natCast]
    omega

variable {date : Int}

theorem getUTCDate_eq_iff {m clock : Int} (hdate : 1 ≤ date) (hpos : 0 ≤ clock)
    (hlt : clock < msPerDay) :
    getUTCDate (msPerDay * (monthStart m + date - 1) + clock) = date ↔ date ≤ monthLength m := by
  unfold getUTCDate
  rw [day_add _ hpos hlt]
  constructor
  · intro heq
    by_contra hlong
    have hnext : m + 1 ≤ monthOf (monthStart m + date - 1) := by
      apply le_monthOf
      unfold monthLength at hlong
      omega
    have hle : monthStart (m + 1) ≤ monthStart (monthOf (monthStart m + date - 1)) := by
      rcases Int.lt_or_eq_of_le hnext with hlt | heq
      · exact Int.le_of_lt (monthStart_lt hlt)
      · rw [heq]
    have hshort := monthStart_succ m
    omega
  · intro hle
    unfold monthLength at hle
    rw [monthOf_eq (m := m) (by omega) (by omega)]
    omega

/-! ## What is accepted -/

theorem digit_le {c : Char} (h : c.isDigit = true) : ((c.toNat - '0'.toNat : Nat) : Int) ≤ 9 := by
  simp only [Char.isDigit, Bool.and_eq_true, decide_eq_true_eq] at h
  have hlast : c.toNat ≤ 57 := h.2
  show ((c.toNat - 48 : Nat) : Int) ≤ 9
  omega

theorem digitsOf_four {a b c d : Char} {n : Int} (h : digitsOf [a, b, c, d] = some n) :
    n < 10000 := by
  unfold digitsOf at h
  split at h
  · rename_i hall
    simp only [List.all_cons, List.all_nil, Bool.and_true, Bool.and_eq_true] at hall
    obtain ⟨ha, hb, hc, hd⟩ := hall
    have ha := digit_le ha
    have hb := digit_le hb
    have hc := digit_le hc
    have hd := digit_le hd
    obtain rfl := Option.some.inj h
    simp only [List.foldl_cons, List.foldl_nil]
    omega
  · cases h

variable {s : String}

theorem splitDate_lt (h : splitDate s = some (year, month, date)) : year < 10000 := by
  unfold splitDate at h
  split at h
  · obtain ⟨y, hy, h⟩ := Option.bind_eq_some_iff.mp h
    obtain ⟨m, _, h⟩ := Option.bind_eq_some_iff.mp h
    obtain ⟨d, _, h⟩ := Option.bind_eq_some_iff.mp h
    cases h
    exact digitsOf_four hy
  · cases h

def anchorOn (year month date : Int) : Int :=
  msPerDay * (monthStart (12 * fullYear year + (month - 1)) + date - 1) + anchorTimeOfDayUtc

theorem dateUTC_anchorOn (hyear : 0 ≤ year ∧ year < 10000)
    (hmonth : 1 ≤ month ∧ month ≤ 12) (hdate : 1 ≤ date ∧ date ≤ 31) :
    dateUTC year (month - 1) date anchorTimeOfDayUtc = some (anchorOn year month date) := by
  have hfull : 100 ≤ fullYear year ∧ fullYear year < 10000 := by
    unfold fullYear
    split <;> omega
  have hfirst : monthStart 0 < monthStart (12 * fullYear year + (month - 1)) :=
    monthStart_lt (by omega)
  have hlast : monthStart (12 * fullYear year + (month - 1)) < monthStart (12 * 10000) :=
    monthStart_lt (by omega)
  have hzero : monthStart 0 = -719528 := by decide
  have hend : monthStart (12 * 10000) = 2932897 := by decide
  rw [hzero] at hfirst
  rw [hend] at hlast
  unfold dateUTC timeClip anchorOn
  apply if_pos
  unfold msPerDay anchorTimeOfDayUtc maxTime
  omega

theorem isDate_anchorOn (hmonth : 1 ≤ month ∧ month ≤ 12)
    (hdate : 1 ≤ date ∧ date ≤ daysIn (isLeap (fullYear year)) month) :
    IsDate (anchorOn year month date) anchorTimeOfDayUtc (fullYear year) month date := by
  have hday : day (anchorOn year month date) =
      monthStart (12 * fullYear year + (month - 1)) + date - 1 := day_add _ (by decide) (by decide)
  have hsplit := day_timeWithinDay (anchorOn year month date)
  rw [← monthLength_eq hmonth] at hdate
  refine ⟨?_, (getUTCDate_eq_iff hdate.1 (by decide) (by decide)).mpr hdate.2, ?_⟩
  · have hle := hdate.2
    rw [hday]
    unfold monthLength at hle
    exact monthOf_eq (by omega) (by omega)
  · rw [hday] at hsplit
    unfold anchorOn at hsplit ⊢
    omega

theorem parseAnchorDateToUtc_eq_ok {t : Int} (hsplit : splitDate s = some (year, month, date)) :
    parseAnchorDateToUtc s = .ok t ↔ (1 ≤ month ∧ month ≤ 12) ∧
      (1 ≤ date ∧ date ≤ daysIn (isLeap (fullYear year)) month) ∧
        t = anchorOn year month date := by
  have hyear : 0 ≤ year ∧ year < 10000 := ⟨splitDate_nonneg hsplit, splitDate_lt hsplit⟩
  have hlong : daysIn (isLeap (fullYear year)) month ≤ 31 := by
    unfold daysIn
    split_ifs <;> decide
  unfold parseAnchorDateToUtc
  rw [hsplit]
  dsimp only
  by_cases hbounds : (1 ≤ month ∧ month ≤ 12) ∧ 1 ≤ date ∧ date ≤ 31
  · obtain ⟨hmonth, hdate⟩ := hbounds
    have hchecked : (month < 1 || 12 < month || date < 1 || 31 < date) = false := by
      simp only [Bool.or_eq_false_iff, decide_eq_false_iff_not]
      omega
    rw [hchecked, dateUTC_anchorOn hyear hmonth hdate]
    by_cases hdays : date ≤ daysIn (isLeap (fullYear year)) month
    · have hsame := isDate_anchorOn hmonth ⟨hdate.1, hdays⟩
      have hindex : monthOf (day (anchorOn year month date)) % 12 = month - 1 := by
        rw [hsame.monthOf]
        omega
      have hkept : ¬(monthOf (day (anchorOn year month date)) % 12 ≠ month - 1 ∨
          getUTCDate (anchorOn year month date) ≠ date) :=
        not_or.mpr ⟨not_not.mpr hindex, not_not.mpr hsame.date⟩
      simp only [Bool.false_eq_true, if_false, if_neg hkept, Except.ok.injEq]
      exact ⟨fun heq => ⟨hmonth, ⟨hdate.1, hdays⟩, heq.symm⟩, fun h => h.2.2.symm⟩
    · have hother : getUTCDate (anchorOn year month date) ≠ date := by
        rw [← monthLength_eq hmonth] at hdays
        exact fun heq => hdays ((getUTCDate_eq_iff hdate.1 (by decide) (by decide)).mp heq)
      simp only [Bool.false_eq_true, if_false, if_pos (Or.inr hother)]
      exact iff_of_false nofun fun h => hdays h.2.1.2
  · have hchecked : (month < 1 || 12 < month || date < 1 || 31 < date) = true := by
      simp only [Bool.or_eq_true, decide_eq_true_eq]
      omega
    rw [if_pos hchecked]
    refine iff_of_false nofun ?_
    rintro ⟨hmonth, hdate, _⟩
    exact hbounds ⟨hmonth, hdate.1, by omega⟩

theorem Denotes.unique {year' month' date' : Int}
    (h : Denotes s year month date) (h' : Denotes s year' month' date') :
    year = year' ∧ month = month' ∧ date = date' := by
  have heq := h.format.symm.trans h'.format
  simp only [Option.some.injEq, Prod.mk.injEq] at heq
  exact heq

theorem daysIn_fullYear (hyear : 0 ≤ year) :
    daysIn (isLeap (fullYear year)) month ≤ daysIn (isLeap year) month := by
  have hleap : isLeap (fullYear year) = true → isLeap year = true := by
    unfold fullYear isLeap
    simp only [Bool.and_eq_true, Bool.or_eq_true, beq_iff_eq, bne_iff_ne]
    split <;> omega
  unfold daysIn
  cases h : isLeap (fullYear year) with
  | true =>
    rw [hleap h]
  | false =>
    simp only [Bool.false_eq_true, if_false]
    split_ifs <;> decide

/-- From the year 100 on the accepted strings are those that denote a date, and become nine o'clock
on it. -/
theorem anchorLaw_of_recent (s : String)
    (hrecent : ∀ year month date, Denotes s year month date → 100 ≤ year) :
    AnchorLaw anchorTimeOfDayUtc s := by
  have hfull : ∀ year month date, Denotes s year month date → fullYear year = year := by
    intro year month date h
    have hyear := hrecent year month date h
    unfold fullYear
    exact if_neg (by omega)
  constructor
  · constructor
    · rintro ⟨t, ht⟩
      cases hsplit : splitDate s with
      | none =>
        unfold parseAnchorDateToUtc at ht
        rw [hsplit] at ht
        cases ht
      | some parts =>
        obtain ⟨year, month, date⟩ := parts
        obtain ⟨hmonth, hdate, _⟩ := (parseAnchorDateToUtc_eq_ok hsplit).mp ht
        exact ⟨year, month, date, hsplit, hmonth, hdate.1,
          Int.le_trans hdate.2 (daysIn_fullYear (splitDate_nonneg hsplit))⟩
    · rintro ⟨year, month, date, h⟩
      refine ⟨_, (parseAnchorDateToUtc_eq_ok h.format).mpr ⟨h.months, ?_, rfl⟩⟩
      rw [hfull year month date h]
      exact h.days
  · intro t year month date ht h
    obtain ⟨hmonth, hdate, rfl⟩ := (parseAnchorDateToUtc_eq_ok h.format).mp ht
    have hsame := isDate_anchorOn hmonth hdate
    rwa [hfull year month date h] at hsame

theorem denotes_january31 : Denotes "2026-01-31" 2026 1 31 :=
  ⟨by decide +kernel, by decide, by decide⟩

theorem anchorLaw_january31 : AnchorLaw anchorTimeOfDayUtc "2026-01-31" :=
  anchorLaw_of_recent "2026-01-31" fun _ _ _ h => by
    rw [← (denotes_january31.unique h).1]
    decide

/-- An anchor is not at midnight. -/
theorem anchorLaw_not_midnight : ¬AnchorLaw 0 "2026-01-31" := by
  intro hlaw
  have hdate := hlaw.returns _ _ _ _ parseAnchorDateToUtc_january31 denotes_january31
  exact absurd hdate.clock (by decide)

end Prequest.Maintenance
