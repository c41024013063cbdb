import Prequest.Recurrence.Exact

/-!
# Longer windows

The rollover extends a series by expanding its rule again, with a later horizon. That leaves the
earlier occurrences alone when the shorter expansion is the beginning of the longer one.

* `prefixStable_iff`: when it is.
* `farMonths_unstable`: months that never come back from an invalid date.
-/

namespace Prequest.Recurrence

open Prequest.Lib Prequest.Lib.Calendar

/-- The same call with a holiday set, another window and another cap. -/
def ExpandArgs.within (args : ExpandArgs) (days : List Int) (horizon : Int) (cap : Nat) :
    ExpandArgs :=
  { args with holidayDates := some days, materializedThrough := horizon, maxOccurrences := cap }

/-- Both calls return, and what the first returns is the beginning of what the second returns. -/
def PrefixStable (args args' : ExpandArgs) : Prop :=
  ∃ out out', Returns args out ∧ Returns args' out' ∧ out <+: out'

section

variable {args : ExpandArgs} {days : List Int} {horizon horizon' : Int} {cap cap' : Nat}

theorem limit_within_le (args : ExpandArgs) (days : List Int) (horizon horizon' : Int)
    (h : cap ≤ cap') :
    (args.within days horizon cap).limit ≤ (args.within days horizon' cap').limit := by
  unfold ExpandArgs.limit ExpandArgs.within
  dsimp only
  cases args.rule.count with
  | none => exact h
  | some count =>
    dsimp only
    omega

theorem passes_within (h : horizon ≤ horizon') {d : Int}
    (hpasses : (args.within days horizon cap).passes d = true) :
    (args.within days horizon' cap').passes d = true := by
  simp only [ExpandArgs.passes, Bool.and_eq_true, decide_eq_true_eq] at hpasses ⊢
  exact ⟨hpasses.1, hpasses.2.trans h⟩

/-! ## The dates of a longer window -/

variable {fuel fuel' : Nat}

theorem dailyCandidates_within (hfuel : fuel ≤ fuel') (cursor : Int) :
    dailyCandidates (args.within days horizon cap) fuel cursor <+:
      dailyCandidates (args.within days horizon' cap') fuel' cursor := by
  induction fuel generalizing fuel' cursor with
  | zero => exact List.nil_prefix
  | succ fuel ih =>
    obtain ⟨fuel', rfl⟩ : ∃ n, fuel' = n + 1 := ⟨fuel' - 1, by omega⟩
    exact List.cons_prefix_cons.mpr ⟨rfl, ih (Nat.le_of_succ_le_succ hfuel) _⟩

theorem weeklyCandidates_within (hfuel : fuel ≤ fuel') (weekStart : Int) :
    weeklyCandidates (args.within days horizon cap) fuel weekStart <+:
      weeklyCandidates (args.within days horizon' cap') fuel' weekStart := by
  induction fuel generalizing fuel' weekStart with
  | zero => exact List.nil_prefix
  | succ fuel ih =>
    obtain ⟨fuel', rfl⟩ : ∃ n, fuel' = n + 1 := ⟨fuel' - 1, by omega⟩
    exact (List.prefix_append_right_inj _).mpr (ih (Nat.le_of_succ_le_succ hfuel) _)

theorem monthlyCandidates_within (h : horizon ≤ horizon') (hfuel : fuel ≤ fuel')
    (byMonthDay cursor : Int) :
    monthlyCandidates (args.within days horizon cap) byMonthDay fuel cursor <+:
      monthlyCandidates (args.within days horizon' cap') byMonthDay fuel' cursor := by
  induction fuel generalizing fuel' cursor with
  | zero => exact List.nil_prefix
  | succ fuel ih =>
    obtain ⟨fuel', rfl⟩ : ∃ n, fuel' = n + 1 := ⟨fuel' - 1, by omega⟩
    have hrest : (if (args.within days horizon cap).passes (addUTCMonths cursor args.interval) then
          monthlyCandidates (args.within days horizon cap) byMonthDay fuel
            (addUTCMonths cursor args.interval) else []) <+:
        if (args.within days horizon' cap').passes (addUTCMonths cursor args.interval) then
          monthlyCandidates (args.within days horizon' cap') byMonthDay fuel'
            (addUTCMonths cursor args.interval) else [] := by
      split
      · rename_i hpasses
        rw [if_pos (passes_within h hpasses)]
        exact ih (Nat.le_of_succ_le_succ hfuel) _
      · exact List.nil_prefix
    show (if ofMonth args byMonthDay cursor then _ :: _ else _) <+:
      if ofMonth args byMonthDay cursor then _ :: _ else _
    split
    · exact List.cons_prefix_cons.mpr ⟨rfl, hrest⟩
    · exact hrest

theorem candidates_within (h : horizon ≤ horizon') (hfuel : fuel ≤ fuel') :
    candidates (args.within days horizon cap) fuel <+:
      candidates (args.within days horizon' cap') fuel' := by
  have hrule (horizon : Int) (cap : Nat) :
      (args.within days horizon cap).rule = args.rule := rfl
  unfold candidates
  rw [hrule, hrule]
  cases args.rule.frequency with
  | daily => exact dailyCandidates_within hfuel _
  | weekly => exact weeklyCandidates_within hfuel _
  | monthly => exact monthlyCandidates_within h hfuel _ _

theorem candidates_sorted (args : ExpandArgs) (fuel : Nat) :
    (candidates args fuel).Pairwise (· ≤ ·) := by
  unfold candidates
  cases args.rule.frequency with
  | daily => exact (dailyCandidates_sorted _ _).imp le_of_lt
  | weekly => exact weeklyCandidates_sorted _ _
  | monthly => exact (monthlyCandidates_sorted _ _ _).1.imp le_of_lt

/-- In a sorted list the dates up to a horizon are the first ones. -/
theorem filter_bookable_within (h : horizon ≤ horizon') {ds : List Int}
    (hsorted : ds.Pairwise (· ≤ ·)) :
    ds.filter (bookable (args.within days horizon cap)) <+:
      ds.filter (bookable (args.within days horizon' cap')) := by
  induction ds with
  | nil => exact List.nil_prefix
  | cons d ds ih =>
    obtain ⟨hall, hsorted⟩ := List.pairwise_cons.mp hsorted
    cases hpasses : (args.within days horizon cap).passes d with
    | false =>
      rw [filter_bookable_eq_nil hpasses (List.forall_mem_cons.mpr ⟨le_refl d, hall⟩)]
      exact List.nil_prefix
    | true =>
      have hsame : bookable (args.within days horizon cap) d =
          bookable (args.within days horizon' cap') d := by
        unfold bookable
        rw [hpasses, passes_within h hpasses]
        rfl
      rw [List.filter_cons, List.filter_cons, hsame]
      split
      · exact List.cons_prefix_cons.mpr ⟨rfl, ih hsorted⟩
      · exact ih hsorted

theorem dates_within (h : horizon ≤ horizon') :
    dates (args.within days horizon cap) (args.within days horizon cap).rounds <+:
      dates (args.within days horizon' cap') (args.within days horizon' cap').rounds := by
  have hrounds : (args.within days horizon cap).rounds ≤ (args.within days horizon' cap').rounds := by
    have hdiv : (horizon - args.anchorStart) / msPerDay ≤
        (horizon' - args.anchorStart) / msPerDay :=
      Int.ediv_le_ediv (by decide) (by omega)
    show ((horizon - args.anchorStart) / msPerDay).toNat + 3 ≤
      ((horizon' - args.anchorStart) / msPerDay).toNat + 3
    omega
  exact ((candidates_within h hrounds).filter _).trans
    (filter_bookable_within h (candidates_sorted _ _))

end

section

variable {args : ExpandArgs} {index : Nat}

/-! ## What a call with holidays returns -/

variable {fuel : Nat} {out : List Occurrence} {cursor : JsDate}

theorem ne_none_of_isHolidayDate (hgiven : args.holidayDates ≠ none) {d : JsDate} {b : Bool}
    (h : args.isHolidayDate d = some b) : d ≠ none := by
  rintro rfl
  unfold ExpandArgs.isHolidayDate at h
  cases hdays : args.holidayDates with
  | none => exact hgiven hdays
  | some days =>
    rw [hdays] at h
    cases h

theorem AllDates.cons {o : Occurrence} (ho : o.startAt ≠ none) (h : AllDates out) :
    AllDates (o :: out) :=
  List.forall_mem_cons.mpr ⟨ho, h⟩

theorem allDates_nil : AllDates [] := fun _ h => absurd h List.not_mem_nil

theorem daily_allDates (hgiven : args.holidayDates ≠ none)
    (h : daily args fuel cursor index = .returned out) : AllDates out := by
  induction fuel generalizing cursor index out with
  | zero => cases h
  | succ fuel ih =>
    unfold daily at h
    split at h
    · simp only at h
      split at h
      · cases h
      · exact ih h
      · rename_i hholiday
        obtain ⟨rest, hrest, rfl⟩ := Expansion.cons_eq_returned.mp h
        exact (ih hrest).cons (ne_none_of_isHolidayDate hgiven hholiday)
    · cases h
      exact allDates_nil

theorem week_allDates (hgiven : args.holidayDates ≠ none) {weekStart : JsDate}
    {nextWeek : Nat → Expansion} (hnext : ∀ i out, nextWeek i = .returned out → AllDates out)
    {dows : List Int} (h : week args weekStart nextWeek dows index = .returned out) :
    AllDates out := by
  induction dows generalizing index out with
  | nil => exact hnext index out h
  | cons dow dows ih =>
    have hrest : ∀ i rest, (if args.limit ≤ i then Expansion.returned []
        else week args weekStart nextWeek dows i) = .returned rest → AllDates rest := by
      intro i rest h
      split at h
      · cases h
        exact allDates_nil
      · exact ih h
    unfold week at h
    simp only at h
    split at h
    · exact ih h
    split at h
    · cases h
      exact allDates_nil
    split at h
    · cases h
    · exact hrest _ _ h
    · rename_i hholiday
      obtain ⟨rest, hreturned, rfl⟩ := Expansion.cons_eq_returned.mp h
      exact (hrest _ _ hreturned).cons (ne_none_of_isHolidayDate hgiven hholiday)

theorem weekly_allDates (hgiven : args.holidayDates ≠ none) {weekStart : JsDate}
    (h : weekly args fuel weekStart index = .returned out) : AllDates out := by
  induction fuel generalizing weekStart index out with
  | zero => cases h
  | succ fuel ih =>
    unfold weekly at h
    split at h
    · exact week_allDates hgiven (fun _ _ => ih) h
    · cases h
      exact allDates_nil

theorem candidateDate_ne_none {byMonthDay : Int}
    (h : candidatePasses args byMonthDay cursor = true) :
    candidateDate args byMonthDay cursor ≠ none := by
  intro hnone
  unfold candidatePasses at h
  rw [hnone] at h
  exact Bool.false_ne_true h

theorem monthly_allDates {byMonthDay : Int}
    (h : monthly args byMonthDay fuel cursor index = .returned out) : AllDates out := by
  induction fuel generalizing cursor index out with
  | zero => cases h
  | succ fuel ih =>
    have hrest : ∀ i rest, (if args.passesDate (moved (addUTCMonths · args.interval) cursor) then
          monthly args byMonthDay fuel (moved (addUTCMonths · args.interval) cursor) i
          else Expansion.returned []) = .returned rest → AllDates rest := by
      intro i rest h
      split at h
      · exact ih h
      · cases h
        exact allDates_nil
    unfold monthly at h
    split at h
    · simp only at h
      split at h
      · rename_i hpasses
        split at h
        · cases h
        · exact hrest _ _ h
        · obtain ⟨rest, hreturned, rfl⟩ := Expansion.cons_eq_returned.mp h
          exact (hrest _ _ hreturned).cons (candidateDate_ne_none hpasses)
      · exact hrest _ _ h
    · cases h
      exact allDates_nil

theorem Returns.allDates (h : Returns args out) (hgiven : args.holidayDates ≠ none) :
    AllDates out := by
  obtain ⟨fuel, h⟩ := h
  cases hrule : args.rule.frequency with
  | daily =>
    rw [expand_daily _ _ hrule] at h
    exact daily_allDates hgiven h
  | weekly =>
    rw [expand_weekly _ _ hrule] at h
    exact weekly_allDates hgiven h
  | monthly =>
    rw [expand_monthly _ _ hrule] at h
    exact monthly_allDates h

end

/-- With a later horizon and a larger cap an expansion only grows at its end, numbers included,
exactly when both stay in the range of dates. -/
theorem prefixStable_iff (args : ExpandArgs) (days : List Int) {horizon horizon' : Int}
    {cap cap' : Nat} (hhorizon : horizon ≤ horizon') (hcap : cap ≤ cap') :
    PrefixStable (args.within days horizon cap) (args.within days horizon' cap') ↔
      StaysInRange (args.within days horizon cap) ∧
        StaysInRange (args.within days horizon' cap') := by
  constructor
  · rintro ⟨out, out', hshort, hlong, _⟩
    exact ⟨staysInRange_of_returns hshort (hshort.allDates (Option.some_ne_none days)),
      staysInRange_of_returns hlong (hlong.allDates (Option.some_ne_none days))⟩
  · rintro ⟨hshort, hlong⟩
    refine ⟨_, _, returns_dates hshort, returns_dates hlong, ?_⟩
    exact numbered_of_prefix (((dates_within hhorizon).take _).trans
      (List.take_prefix_take_left (limit_within_le _ _ _ _ hcap)))

/-- Fridays, Mondays and Wednesdays from the start of 1970. -/
def weekdays : ExpandArgs where
  rule := { frequency := .weekly, byDay := [.fr, .mo, .we] }
  anchorStart := 0
  durationMinutes := 60
  materializedThrough := 0

/-- Without Monday the 5th, and with two days and an occurrence more. -/
theorem prefixStable_iff_weekdays : PrefixStable (weekdays.within [4] (6 * msPerDay) 2)
    (weekdays.within [4] (8 * msPerDay) 3) := by
  refine (prefixStable_iff weekdays [4] (by decide) (by decide)).mpr ⟨?_, ?_⟩
  · have hreturns : Returns (weekdays.within [4] (6 * msPerDay) 2)
        (numbered (weekdays.within [4] (6 * msPerDay) 2) 0 [msPerDay, 6 * msPerDay]) :=
      ⟨3, by decide +kernel⟩
    exact staysInRange_of_returns hreturns allDates_numbered
  · have hreturns : Returns (weekdays.within [4] (8 * msPerDay) 3)
        (numbered (weekdays.within [4] (8 * msPerDay) 3) 0 [msPerDay, 6 * msPerDay, 8 * msPerDay]) :=
      ⟨3, by decide +kernel⟩
    exact staysInRange_of_returns hreturns allDates_numbered

/-! ## Every 4000000 months -/

/-- From the start of 1970. -/
def farMonths : ExpandArgs where
  rule := { frequency := .monthly, interval := 4000000 }
  anchorStart := 0
  durationMinutes := 60
  materializedThrough := 0

/-- The second month is no date, passes every window, and the loop never reaches its second
occurrence. -/
theorem farMonths_unstable :
    ¬PrefixStable (farMonths.within [] msPerDay 2) (farMonths.within [] (2 * msPerDay) 2) := by
  rintro ⟨out, _, ⟨fuel, h⟩, _⟩
  cases fuel with
  | zero => cases h
  | succ fuel =>
    have hnext : timeClip (addUTCMonths 0 (farMonths.within [] msPerDay 2).interval) = none := by
      decide +kernel
    have hemits : emitsMonth (farMonths.within [] msPerDay 2) 1 0 = true := by decide +kernel
    have hround : expand (farMonths.within [] msPerDay 2) (fuel + 1) =
        monthly (farMonths.within [] msPerDay 2) 1 (fuel + 1) (some 0) 0 :=
      expand_monthly _ _ rfl
    have hclock : timeWithinDay 0 = timeWithinDay (farMonths.within [] msPerDay 2).anchorStart := rfl
    rw [hround, monthly_some hclock, hnext, if_pos (by decide), if_pos hemits] at h
    simp only [passesDate_none, if_true] at h
    rw [monthly_none fuel (by decide)] at h
    cases h

end Prequest.Recurrence
