import Prequest.Maintenance.Recurrence

/-!
# Drift of a cadence

The generator advances a plan from its last run, so each advance sees only the date before it.

* `noDrift_iff`: it is the date of the periods exactly when no month on the way was too short.
-/

namespace Prequest.Maintenance

open Prequest.Lib.Calendar

/-! ## Dates by periods -/

section

variable (c : Cadence) (anchor : Int) (k : Nat)

/-- The month that is `k` periods after the one of the anchor. -/
def Cadence.month : Int :=
  monthOf (day anchor) + k * c.months

/-- The date `k` periods after the anchor, with the day of the month clamped. -/
def Cadence.periods : Int :=
  if c.inMonths then monthDate anchor (c.month anchor k) (getUTCDate anchor)
  else anchor + msPerDay * (k * c.days)

/-- The plan runs `k` periods after its anchor in its `k`th run. -/
def NoDrift : Prop :=
  c.advances k (some anchor) = .ok (some (c.periods anchor k))

/-- No month on the way is too short for the day of the last one. -/
def KeepsDay : Prop :=
  c.inMonths = true → ∀ j < k, min (getUTCDate anchor) (monthLength (c.month anchor k)) ≤
    monthLength (c.month anchor j)

/-- The last date of the way is one of the range, and for months so is the end of its month. -/
def EndsInRange : Prop :=
  k = 0 ∨ inRange (c.periods anchor k) = true ∧
    (c.inMonths = true → inRange (msPerDay * (monthStart (c.month anchor k + 1) - 1)) = true)

end

/-- The day of the month after `k` advances. -/
def dayAfter (c : Cadence) (anchor : Int) : Nat → Int
  | 0 => getUTCDate anchor
  | k + 1 => min (dayAfter c anchor k) (monthLength (c.month anchor (k + 1)))

/-- The date after `k` advances. -/
def dateAfter (c : Cadence) (anchor : Int) (k : Nat) : Int :=
  if c.inMonths then monthDate anchor (c.month anchor k) (dayAfter c anchor k)
  else anchor + msPerDay * (k * c.days)

section

variable {c : Cadence} {anchor : Int}

theorem one_le_dayAfter (k : Nat) : 1 ≤ dayAfter c anchor k := by
  induction k with
  | zero => exact one_le_getUTCDate anchor
  | succ k ih =>
    have := one_le_monthLength (c.month anchor (k + 1))
    unfold dayAfter
    omega

variable (c anchor) in
theorem dayAfter_le (k : Nat) : dayAfter c anchor k ≤ monthLength (c.month anchor k) := by
  cases k with
  | zero =>
    have hmonth : c.month anchor 0 = monthOf (day anchor) := by
      unfold Cadence.month
      omega
    rw [hmonth]
    exact getUTCDate_le anchor
  | succ k => exact Int.min_le_right _ _

theorem le_dayAfter {d : Int} (k : Nat) : d ≤ dayAfter c anchor k ↔
    d ≤ getUTCDate anchor ∧ ∀ j < k, d ≤ monthLength (c.month anchor (j + 1)) := by
  induction k with
  | zero =>
    refine ⟨fun h => ⟨h, fun j hj => absurd hj (Nat.not_lt_zero j)⟩, fun h => h.1⟩
  | succ k ih =>
    unfold dayAfter
    rw [Int.le_min, ih]
    constructor
    · rintro ⟨⟨hanchor, hall⟩, hlast⟩
      refine ⟨hanchor, fun j hj => ?_⟩
      rcases Nat.lt_succ_iff_lt_or_eq.mp hj with hlt | rfl
      · exact hall j hlt
      · exact hlast
    · rintro ⟨hanchor, hall⟩
      exact ⟨⟨hanchor, fun j hj => hall j (Nat.lt_succ_of_lt hj)⟩, hall k (Nat.lt_succ_self k)⟩

theorem dayAfter_eq_iff (k : Nat) :
    dayAfter c anchor k = min (getUTCDate anchor) (monthLength (c.month anchor k)) ↔
      ∀ j < k, min (getUTCDate anchor) (monthLength (c.month anchor k)) ≤
        monthLength (c.month anchor j) := by
  have hfirst : dayAfter c anchor k ≤ getUTCDate anchor := ((le_dayAfter k).mp (Int.le_refl _)).1
  have hlast := dayAfter_le c anchor k
  constructor
  · intro heq j hj
    cases j with
    | zero =>
      have hzero := dayAfter_le c anchor 0
      show _ ≤ monthLength (c.month anchor 0)
      have : dayAfter c anchor 0 = getUTCDate anchor := rfl
      omega
    | succ j =>
      rw [← heq]
      exact ((le_dayAfter k).mp (Int.le_refl _)).2 j (by omega)
  · intro hall
    have hge : min (getUTCDate anchor) (monthLength (c.month anchor k)) ≤ dayAfter c anchor k := by
      refine (le_dayAfter k).mpr ⟨Int.min_le_left _ _, fun j hj => ?_⟩
      rcases Nat.lt_or_eq_of_le (Nat.succ_le_of_lt hj) with hlt | heq
      · exact hall (j + 1) hlt
      · rw [show j + 1 = k from heq]
        exact Int.min_le_right _ _
    omega

/-! ## Dates by advances -/

theorem targetMonth_eq {t : Int} (h : 1200 ≤ monthOf (day t)) :
    c.targetMonth t = monthOf (day t) + c.months := by
  have hmonths := one_le_months c
  unfold Cadence.targetMonth fullYear
  simp only
  rw [if_neg (by omega)]
  omega

theorem month_succ (k : Nat) : c.month anchor (k + 1) = c.month anchor k + c.months := by
  unfold Cadence.month
  rw [Int.natCast_succ, Int.add_mul, Int.one_mul, Int.add_assoc]

variable (c anchor) in
theorem le_month (k : Nat) : monthOf (day anchor) ≤ c.month anchor k := by
  have hmul : 0 ≤ (k : Int) * c.months :=
    Int.mul_nonneg (Int.natCast_nonneg k) (by have := one_le_months c; omega)
  unfold Cadence.month
  omega

theorem step_dateAfter (h : 1200 ≤ monthOf (day anchor)) (k : Nat) :
    c.step (dateAfter c anchor k) = dateAfter c anchor (k + 1) := by
  unfold Cadence.step
  split
  · rename_i hin
    have hdate : dateAfter c anchor k =
        monthDate anchor (c.month anchor k) (dayAfter c anchor k) := if_pos hin
    have hmonth : monthOf (day (dateAfter c anchor k)) = c.month anchor k := by
      rw [hdate]
      exact monthOf_monthDate (one_le_dayAfter k)
    have htarget : c.targetMonth (dateAfter c anchor k) = c.month anchor (k + 1) := by
      have := le_month c anchor k
      rw [targetMonth_eq (by omega), hmonth, month_succ]
    have hday : getUTCDate (dateAfter c anchor k) = dayAfter c anchor k := by
      rw [hdate, getUTCDate_monthDate (one_le_dayAfter k), Int.min_eq_left (dayAfter_le c anchor k)]
    have hclock : timeWithinDay (dateAfter c anchor k) = timeWithinDay anchor := by
      rw [hdate]
      exact timeWithinDay_monthDate
    have hnext : dateAfter c anchor (k + 1) =
        monthDate anchor (c.month anchor (k + 1)) (dayAfter c anchor (k + 1)) := if_pos hin
    have hmin : dayAfter c anchor (k + 1) =
        min (dayAfter c anchor k) (monthLength (c.month anchor (k + 1))) := rfl
    rw [htarget, hday, hnext]
    unfold monthDate
    rw [hclock, hmin, Int.min_assoc, Int.min_self]
  · rename_i hin
    have hdate : ∀ k, dateAfter c anchor k = anchor + msPerDay * (k * c.days) :=
      fun k => if_neg hin
    rw [hdate, hdate, Int.natCast_succ, Int.add_mul, Int.one_mul, Int.mul_add, Int.add_assoc]

theorem step_iterate (h : 1200 ≤ monthOf (day anchor)) (k : Nat) :
    c.step^[k] anchor = dateAfter c anchor k := by
  induction k with
  | zero =>
    unfold dateAfter
    split
    · show anchor = monthDate anchor (c.month anchor 0) (getUTCDate anchor)
      have hmonth : c.month anchor 0 = monthOf (day anchor) := by
        unfold Cadence.month
        omega
      rw [hmonth]
      exact (monthDate_self anchor).symm
    · simp
  | succ k ih => rw [Function.iterate_succ_apply', ih, step_dateAfter h]

theorem dateAfter_eq_iff (k : Nat) :
    dateAfter c anchor k = c.periods anchor k ↔ KeepsDay c anchor k := by
  unfold dateAfter Cadence.periods KeepsDay
  cases hin : c.inMonths with
  | false => simp
  | true =>
    rw [if_pos rfl, if_pos rfl]
    have hle := dayAfter_le c anchor k
    rw [← dayAfter_eq_iff k]
    constructor
    · intro heq _
      unfold monthDate at heq
      rw [Int.min_eq_left hle] at heq
      unfold msPerDay at heq
      omega
    · intro heq
      unfold monthDate
      rw [heq rfl, Int.min_assoc, Int.min_self]

theorem targetMonth_iterate (hyear : 1200 ≤ monthOf (day anchor)) (hin : c.inMonths = true)
    (j : Nat) : c.targetMonth (c.step^[j] anchor) = c.month anchor (j + 1) := by
  have hdate : c.step^[j] anchor = monthDate anchor (c.month anchor j) (dayAfter c anchor j) := by
    rw [step_iterate hyear]
    exact if_pos hin
  have hmonth : monthOf (day (c.step^[j] anchor)) = c.month anchor j := by
    rw [hdate]
    exact monthOf_monthDate (one_le_dayAfter j)
  have hle := le_month c anchor j
  rw [targetMonth_eq (by omega), hmonth, month_succ]

theorem fits_dateAfter (hyear : 1200 ≤ monthOf (day anchor)) (hanchor : inRange anchor = true)
    {k : Nat} (hlast : inRange (dateAfter c anchor (k + 1)) = true)
    (hmonth : c.inMonths = true →
      inRange (msPerDay * (monthStart (c.month anchor (k + 1) + 1) - 1)) = true) :
    ∀ j < k + 1, c.fits (c.step^[j] anchor) = true := by
  intro j hj
  have hstep : c.step (c.step^[j] anchor) = dateAfter c anchor (j + 1) := by
    rw [← step_iterate hyear, Function.iterate_succ_apply']
  have hbefore : dateAfter c anchor (j + 1) ≤ dateAfter c anchor (k + 1) := by
    rw [← step_iterate hyear, ← step_iterate hyear]
    rcases Nat.lt_succ_iff_lt_or_eq.mp hj with hlt | rfl
    · exact Int.le_of_lt (step_iterate_lt c anchor (Nat.succ_lt_succ hlt))
    · exact Int.le_refl _
  have hfirst : anchor < dateAfter c anchor (j + 1) := by
    rw [← step_iterate hyear]
    exact step_iterate_lt c anchor (Nat.zero_lt_succ j)
  unfold inRange at hlast hanchor
  simp only [Bool.and_eq_true, decide_eq_true_eq] at hlast hanchor
  unfold Cadence.fits
  rw [hstep, Bool.and_eq_true]
  refine ⟨?_, ?_⟩
  · unfold inRange
    simp only [Bool.and_eq_true, decide_eq_true_eq]
    omega
  · cases hin : c.inMonths with
    | false => rfl
    | true =>
      have hmonths : monthStart (c.month anchor (j + 1) + 1) ≤
          monthStart (c.month anchor (k + 1) + 1) := by
        rcases Nat.lt_or_eq_of_le (Nat.lt_succ_iff.mp hj) with hlt | rfl
        · refine Int.le_of_lt (monthStart_lt ?_)
          have hmul : ((j + 1 : Nat) : Int) * c.months < ((k + 1 : Nat) : Int) * c.months :=
            Int.mul_lt_mul_of_pos_right (by omega) (by have := one_le_months c; omega)
          unfold Cadence.month
          omega
        · exact Int.le_refl _
      -- The day after the anchor's month comes before the end of a later month.
      have hafter : monthStart (monthOf (day anchor) + 1) < monthStart (c.month anchor (j + 1) + 1) := by
        refine monthStart_lt ?_
        have := le_month c anchor j
        have := one_le_months c
        rw [month_succ]
        omega
      have hday := (monthOf_spec (day anchor)).2
      have hsplit := day_timeWithinDay anchor
      have hclock := timeWithinDay_lt anchor
      have hend := hmonth hin
      rw [targetMonth_iterate hyear hin, Bool.not_true, Bool.false_or]
      unfold inRange at hend ⊢
      simp only [Bool.and_eq_true, decide_eq_true_eq] at hend ⊢
      unfold msPerDay at hend hsplit hclock ⊢
      omega

theorem advances_eq_iff (hyear : 1200 ≤ monthOf (day anchor)) (hanchor : inRange anchor = true)
    (k : Nat) : NoDrift c anchor k ↔ KeepsDay c anchor k ∧ EndsInRange c anchor k := by
  have hdate := step_iterate (c := c) hyear k
  unfold NoDrift
  rw [advances_some]
  constructor
  · intro h
    split at h
    · rename_i hfits
      have heq : c.step^[k] anchor = c.periods anchor k := Option.some.inj (Except.ok.inj h)
      refine ⟨(dateAfter_eq_iff k).mp (hdate ▸ heq), ?_⟩
      cases k with
      | zero => exact .inl rfl
      | succ k =>
        have hlast := hfits k (Nat.lt_succ_self k)
        unfold Cadence.fits at hlast
        rw [← Function.iterate_succ_apply' c.step k anchor, heq, Bool.and_eq_true] at hlast
        refine .inr ⟨hlast.1, fun hin => ?_⟩
        have hmonth := hlast.2
        rw [hin, Bool.not_true, Bool.false_or, targetMonth_iterate hyear hin] at hmonth
        exact hmonth
    · cases h
  · rintro ⟨hkeeps, hrange⟩
    have heq : c.step^[k] anchor = c.periods anchor k := by
      rw [hdate]
      exact (dateAfter_eq_iff k).mpr hkeeps
    rw [if_pos, heq]
    intro j hj
    cases k with
    | zero => cases hj
    | succ k =>
      rcases hrange with hzero | ⟨hlast, hmonth⟩
      · cases hzero
      · rw [← heq, hdate] at hlast
        exact fits_dateAfter hyear hanchor hlast hmonth j hj

end

/-! ## Anchors -/

theorem digitsOf_nonneg {cs : List Char} {n : Int} (h : digitsOf cs = some n) : 0 ≤ n := by
  have hfold : ∀ (cs : List Char) (acc : Int), 0 ≤ acc →
      0 ≤ cs.foldl (fun n c => 10 * n + ((c.toNat - '0'.toNat : Nat) : Int)) acc := by
    intro cs
    induction cs with
    | nil => exact fun acc hacc => hacc
    | cons c cs ih =>
      intro acc hacc
      have hdigit : 0 ≤ 10 * acc + ((c.toNat - '0'.toNat : Nat) : Int) := by omega
      exact ih _ hdigit
  unfold digitsOf at h
  split at h
  · cases h
    exact hfold cs 0 (Int.le_refl 0)
  · cases h

variable {anchorDate : String}

theorem splitDate_nonneg {year month date : Int}
    (h : splitDate anchorDate = some (year, month, date)) : 0 ≤ year := by
  unfold splitDate at h
  split at h
  · obtain ⟨y, hy, h⟩ := Option.bind_eq_some_iff.mp h
    obtain ⟨m, _, h⟩ := Option.bind_eq_some_iff.mp h
    obtain ⟨d, _, h⟩ := Option.bind_eq_some_iff.mp h
    cases h
    exact digitsOf_nonneg hy
  · cases h

theorem parseAnchorDateToUtc_spec {anchor : Int}
    (h : parseAnchorDateToUtc anchorDate = .ok anchor) :
    inRange anchor = true ∧ 1200 ≤ monthOf (day anchor) := by
  unfold parseAnchorDateToUtc at h
  split at h
  · cases h
  rename_i year month date hsplit
  split at h
  · cases h
  rename_i hbounds
  split at h
  · cases h
  rename_i t hutc
  split at h
  · cases h
  cases h
  simp only [Bool.or_eq_true, decide_eq_true_eq, not_or, Int.not_lt] at hbounds
  unfold dateUTC at hutc
  rw [timeClip_eq] at hutc
  split at hutc
  swap
  · cases hutc
  rename_i hrange
  cases hutc
  refine ⟨hrange, le_monthOf ?_⟩
  rw [day_add _ (by decide) (by decide)]
  have hyear : 100 ≤ fullYear year := by
    have := splitDate_nonneg hsplit
    unfold fullYear
    split <;> omega
  rcases Int.lt_or_eq_of_le (show 1200 ≤ 12 * fullYear year + (month - 1) by omega) with hlt | heq
  · have := monthStart_lt hlt
    omega
  · rw [← heq]
    omega

/-- A plan keeps its cadence through `k` runs exactly when no month on the way is too short for the
day of the `k`th run, and that run is still in the range of a date. -/
theorem noDrift_iff (c : Cadence) {anchorDate : String} {anchor : Int}
    (h : parseAnchorDateToUtc anchorDate = .ok anchor) (k : Nat) :
    NoDrift c anchor k ↔ KeepsDay c anchor k ∧ EndsInRange c anchor k :=
  advances_eq_iff (parseAnchorDateToUtc_spec h).2 (parseAnchorDateToUtc_spec h).1 k

/-! ## Monthly plans -/

def everyMonth : Cadence := ⟨1, .month, by decide⟩

theorem parseAnchorDateToUtc_january31 :
    parseAnchorDateToUtc "2026-01-31" = .ok 1769850000000 := by
  have hdate : splitDate "2026-01-31" = some (2026, 1, 31) := by decide +kernel
  unfold parseAnchorDateToUtc
  rw [hdate]
  rfl

/-- From the end of January the first run is on the last day of February. -/
theorem noDrift_february :
    NoDrift everyMonth 1769850000000 1 ↔
      KeepsDay everyMonth 1769850000000 1 ∧ EndsInRange everyMonth 1769850000000 1 :=
  noDrift_iff everyMonth parseAnchorDateToUtc_january31 1

/-- The second run stays on the 28th, and March has a 31st. -/
theorem march_drifts : ¬NoDrift everyMonth 1769850000000 2 := by
  intro h
  obtain ⟨hkeeps, _⟩ := (advances_eq_iff (by decide +kernel) (by decide +kernel) 2).mp h
  exact absurd (hkeeps rfl 1 (by decide)) (by decide +kernel)

end Prequest.Maintenance
