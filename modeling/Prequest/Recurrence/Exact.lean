import Mathlib.Data.Set.Card
import Prequest.Lib.Sorting
import Prequest.Recurrence.Loops

/-!
# Exact expansions

* `exactExpansion_iff`: an expansion is exact exactly when it stays in the range of dates and is
  sound.
* `midMonth_loses_february`: the cursor over months rolls over.
-/

namespace Prequest.Recurrence

open Prequest.Lib Prequest.Lib.Calendar

/-! ## What a rule means -/

section

variable (args : ExpandArgs)

/-- The month of the `k`th period. -/
def ruleMonth (k : Nat) : Int := monthOf (day args.anchorStart) + args.interval * k

def atTimeOfAnchor (d : Int) : Int := msPerDay * d + timeWithinDay args.anchorStart

def RuleInstant (d : Int) : Prop :=
  match args.rule.frequency with
  | .daily => ∃ k : Nat, d = args.anchorStart + msPerDay * (args.interval * k)
  | .weekly => ∃ k : Nat, ∃ dow ∈ byDayDows args,
      d = atTimeOfAnchor args
        (day args.anchorStart - weekDay args.anchorStart + 7 * args.interval * k + dow)
  | .monthly => ∃ k : Nat, 1 ≤ dayOfRule args ∧
      dayOfRule args ≤ monthLength (ruleMonth args k) ∧
        d = atTimeOfAnchor args (monthStart (ruleMonth args k) + dayOfRule args - 1)

/-- An instant of the rule that is a date, not before the anchor, in the window, and no holiday. -/
def Due (d : Int) : Prop := RuleInstant args d ∧ bookable args d = true

/-- The expansion returns the due instants in increasing order, numbered, up to the limit. -/
def ExactExpansion : Prop :=
  ∃ full : List Int, full.Pairwise (· < ·) ∧ (∀ d, d ∈ full ↔ Due args d) ∧
    Returns args (numbered args 0 (full.take args.limit))

noncomputable def dueBefore (d : Int) : Nat := Set.ncard {e | Due args e ∧ e < d}

/-- The anchor, moved on `k` times by the interval with `setUTCMonth`. -/
def cursorAt (k : Nat) : Int := (fun c => addUTCMonths c args.interval)^[k] args.anchorStart

/-- The date is the day of the rule in the month of a cursor that is the first or in the window. -/
def Reaches (d : Int) : Prop :=
  ∃ k : Nat, (k = 0 ∨ args.passes (cursorAt args k) = true) ∧
    ofMonth args (dayOfRule args) (cursorAt args k) = true ∧
      d = candidate args (dayOfRule args) (cursorAt args k)

/-- For weeks, the weekday of every date but the last is named once. For months, before the limit
the cursor stands in a month with a bookable date exactly when the month is one of the rule. -/
def Sound : Prop :=
  match args.rule.frequency with
  | .daily => True
  | .weekly => ∀ d, Due args d → dueBefore args d + 1 < args.limit →
      (byDayDows args).count (weekDay d) = 1
  | .monthly => ∀ d, bookable args d = true → dueBefore args d < args.limit →
      (RuleInstant args d ↔ Reaches args d)

def dueList : List Int :=
  match args.rule.frequency with
  | .daily => dates args args.rounds
  | .weekly => (dates args args.rounds).dedup
  | .monthly =>
      (((List.range args.rounds).filter fun k =>
        decide (1 ≤ dayOfRule args) && decide (dayOfRule args ≤ monthLength (ruleMonth args k))).map
          fun k => atTimeOfAnchor args (monthStart (ruleMonth args k) + dayOfRule args - 1)).filter
            (bookable args)

end

section

variable {args : ExpandArgs} {d : Int}

variable {k : Nat}

theorem monthStart_add (m : Int) (n : Nat) : monthStart m + 28 * n ≤ monthStart (m + n) := by
  induction n with
  | zero => simp
  | succ n ih =>
    have hsucc := monthStart_succ (m + n)
    rw [Int.natCast_succ, ← Int.add_assoc]
    omega

/-! ## Days -/

variable {fuel : Nat} {j : Nat}

theorem dailyCandidates_sorted (fuel : Nat) (cursor : Int) :
    (dailyCandidates args fuel cursor).Pairwise (· < ·) := by
  induction fuel generalizing cursor with
  | zero => exact .nil
  | succ fuel ih =>
    refine .cons ?_ (ih _)
    intro e he
    have hle := le_dailyCandidates e he
    have hnext := le_nextDay args cursor
    unfold msPerDay at hnext
    omega

theorem mem_dates_daily (hrule : args.rule.frequency = .daily) :
    d ∈ dates args args.rounds ↔ Due args d := by
  unfold dates candidates Due RuleInstant
  rw [hrule]
  rw [List.mem_filter, mem_dailyCandidates]
  refine and_congr_left fun hbookable => ⟨?_, ?_⟩
  · rintro ⟨k, _, rfl⟩
    exact ⟨k, rfl⟩
  · rintro ⟨k, rfl⟩
    refine ⟨k, lt_rounds ?_ (bookable_iff.mp hbookable).2.2.1, rfl⟩
    have := msPerDay_mul_le (le_interval_mul args k)
    unfold msPerDay at this ⊢
    omega

/-! ## Weeks -/

theorem mem_dates_weekly (hrule : args.rule.frequency = .weekly) :
    d ∈ dates args args.rounds ↔ Due args d := by
  unfold dates candidates Due RuleInstant
  rw [hrule]
  rw [List.mem_filter, mem_weeklyCandidates, day_startOfWeek]
  refine and_congr_left fun hbookable => ⟨?_, ?_⟩
  · rintro ⟨k, _, hk⟩
    exact ⟨k, hk⟩
  · rintro ⟨k, dow, hdow, rfl⟩
    refine ⟨k, ?_, dow, hdow, rfl⟩
    cases k with
    | zero =>
      unfold ExpandArgs.rounds
      omega
    | succ k =>
      refine lt_rounds ?_ (bookable_iff.mp hbookable).2.2.1
      have hbounds := (byDayDows_bounds hdow).1
      have hweek : weekDay args.anchorStart ≤ 6 := by
        unfold weekDay
        omega
      have hk := le_interval_mul args (k + 1)
      have hassoc : 7 * args.interval * ((k + 1 : Nat) : Int) =
          7 * (args.interval * ((k + 1 : Nat) : Int)) := Int.mul_assoc _ _ _
      have hsplit := day_timeWithinDay args.anchorStart
      unfold atTimeOfAnchor
      rw [hassoc]
      unfold msPerDay at hsplit ⊢
      omega

theorem count_weeklyCandidates (hk : k < fuel) {weekStart dow : Int} (hdow : dow ∈ byDayDows args)
    (hd : d = msPerDay * (day weekStart + 7 * args.interval * k + dow) +
      timeWithinDay args.anchorStart) :
    (weeklyCandidates args fuel weekStart).count d = (byDayDows args).count dow := by
  induction fuel generalizing k weekStart with
  | zero => cases hk
  | succ fuel ih =>
    unfold weeklyCandidates
    rw [List.count_append]
    cases k with
    | zero =>
      have hday : d = dayDate args weekStart dow := by
        rw [hd, dayDate_eq]
        simp
      have hinj : Function.Injective (dayDate args weekStart) := by
        intro a b hab
        rw [dayDate_eq, dayDate_eq] at hab
        unfold msPerDay at hab
        omega
      have hrest : d ∉ weeklyCandidates args fuel
          (setUTCDate weekStart (getUTCDate weekStart + 7 * args.interval)) := by
        intro hmem
        rw [hday] at hmem
        exact lt_irrefl _ (dayDate_lt_next hdow hmem)
      rw [List.count_eq_zero_of_not_mem hrest, hday, List.count_map_of_injective _ _ hinj,
        Nat.add_zero]
    | succ k =>
      have hk' : k < fuel := Nat.lt_of_succ_lt_succ hk
      have hnext : d = msPerDay * (day (setUTCDate weekStart
          (getUTCDate weekStart + 7 * args.interval)) + 7 * args.interval * k + dow) +
            timeWithinDay args.anchorStart := by
        have hstep : 7 * args.interval * ((k + 1 : Nat) : Int) =
            7 * args.interval + 7 * args.interval * k := by
          rw [Int.natCast_succ, Int.mul_add, Int.mul_one, Int.add_comm]
        rw [hd, day_nextWeek, hstep, Int.add_assoc (day weekStart) (7 * args.interval)]
      have hblock : d ∉ (byDayDows args).map (dayDate args weekStart) := by
        intro hmem
        obtain ⟨dow', hdow', heq⟩ := List.mem_map.mp hmem
        have hlater := dayDate_lt_next hdow' (mem_weeklyCandidates.mpr ⟨k, hk', dow, hdow, hnext⟩)
        rw [heq] at hlater
        exact lt_irrefl _ hlater
      rw [List.count_eq_zero_of_not_mem hblock, Nat.zero_add]
      exact ih hk' hnext

theorem count_dates_weekly (hrule : args.rule.frequency = .weekly) (hd : Due args d) :
    (dates args args.rounds).count d = (byDayDows args).count (weekDay d) := by
  have hmem := (mem_dates_weekly hrule).mpr hd
  unfold dates candidates at hmem ⊢
  rw [hrule] at hmem ⊢
  rw [List.mem_filter, mem_weeklyCandidates] at hmem
  obtain ⟨⟨k, hk, dow, hdow, heq⟩, _⟩ := hmem
  have hweek : weekDay d = dow := by
    have hbounds := byDayDows_bounds hdow
    have hday : day d = day (startOfWeek args.anchorStart) + 7 * args.interval * k + dow := by
      rw [heq]
      exact day_add _ (timeWithinDay_nonneg _) (timeWithinDay_lt _)
    have hassoc : 7 * args.interval * (k : Int) = 7 * (args.interval * k) := Int.mul_assoc _ _ _
    rw [day_startOfWeek, hassoc] at hday
    unfold weekDay at hday ⊢
    omega
  rw [List.count_filter hd.2, hweek]
  exact count_weeklyCandidates hk hdow heq

/-! ## Months -/

theorem cursorAt_succ (k : Nat) :
    cursorAt args (k + 1) = addUTCMonths (cursorAt args k) args.interval :=
  Function.iterate_succ_apply' _ k _

variable (args) in
theorem le_cursorAt (k : Nat) : args.anchorStart + msPerDay * k ≤ cursorAt args k := by
  induction k with
  | zero => simp [cursorAt]
  | succ k ih =>
    have hnext := lt_addUTCMonths (cursorAt args k) (show 0 < args.interval from one_le_interval args)
    rw [cursorAt_succ]
    unfold msPerDay at ih hnext ⊢
    omega

theorem cursorAt_mono (h : j ≤ k) : cursorAt args j ≤ cursorAt args k := by
  induction k, h using Nat.le_induction with
  | base => exact le_refl _
  | succ k _ ih =>
    have hnext := lt_addUTCMonths (cursorAt args k) (show 0 < args.interval from one_le_interval args)
    rw [cursorAt_succ]
    unfold msPerDay at hnext
    omega

theorem mem_monthlyCandidates {byMonthDay : Int} :
    d ∈ monthlyCandidates args byMonthDay fuel (cursorAt args j) ↔
      ∃ k < fuel, (∀ i < k, args.passes (cursorAt args (j + i + 1)) = true) ∧
        ofMonth args byMonthDay (cursorAt args (j + k)) = true ∧
          d = candidate args byMonthDay (cursorAt args (j + k)) := by
  induction fuel generalizing j with
  | zero => simp [monthlyCandidates]
  | succ fuel ih =>
    have hrest : (d ∈ if args.passes (cursorAt args (j + 1)) then
          monthlyCandidates args byMonthDay fuel (cursorAt args (j + 1)) else []) ↔
        ∃ k < fuel, (∀ i < k + 1, args.passes (cursorAt args (j + i + 1)) = true) ∧
          ofMonth args byMonthDay (cursorAt args (j + (k + 1))) = true ∧
            d = candidate args byMonthDay (cursorAt args (j + (k + 1))) := by
      have hshift : ∀ i, j + 1 + i = j + (i + 1) := fun i => by omega
      split
      · rename_i hpasses
        rw [ih]
        simp only [hshift]
        refine exists_congr fun k => and_congr_right fun _ => and_congr_left fun _ => ?_
        constructor
        · intro h i hi
          cases i with
          | zero => exact hpasses
          | succ i => exact h i (Nat.lt_of_succ_lt_succ hi)
        · intro h i hi
          exact h (i + 1) (Nat.succ_lt_succ hi)
      · rename_i hpasses
        refine iff_of_false List.not_mem_nil ?_
        rintro ⟨k, _, h, _⟩
        exact hpasses (h 0 (Nat.zero_lt_succ k))
    have hsplit : d ∈ monthlyCandidates args byMonthDay (fuel + 1) (cursorAt args j) ↔
        (ofMonth args byMonthDay (cursorAt args j) = true ∧
            d = candidate args byMonthDay (cursorAt args j)) ∨
          d ∈ if args.passes (cursorAt args (j + 1)) then
            monthlyCandidates args byMonthDay fuel (cursorAt args (j + 1)) else [] := by
      rw [monthlyCandidates, cursorAt_succ]
      cases ofMonth args byMonthDay (cursorAt args j) with
      | true => simp
      | false => simp
    rw [hsplit, hrest]
    constructor
    · rintro (⟨hmonth, hd⟩ | ⟨k, hk, h⟩)
      · exact ⟨0, Nat.zero_lt_succ fuel, fun i hi => absurd hi (Nat.not_lt_zero i), hmonth, hd⟩
      · exact ⟨k + 1, Nat.succ_lt_succ hk, h⟩
    · rintro ⟨k, hk, h⟩
      cases k with
      | zero => exact .inl ⟨h.2.1, h.2.2⟩
      | succ k => exact .inr ⟨k, Nat.lt_of_succ_lt_succ hk, h⟩

theorem monthlyCandidates_sorted (byMonthDay : Int) (fuel : Nat) (cursor : Int) :
    (monthlyCandidates args byMonthDay fuel cursor).Pairwise (· < ·) ∧
      ∀ e ∈ monthlyCandidates args byMonthDay fuel cursor, candidateStart byMonthDay cursor ≤ e := by
  induction fuel generalizing cursor with
  | zero =>
    refine ⟨.nil, fun e he => ?_⟩
    cases he
  | succ fuel ih =>
    obtain ⟨hsorted, hle⟩ := ih (addUTCMonths cursor args.interval)
    have hnext := candidate_lt_next args byMonthDay cursor
    have hpos := timeWithinDay_nonneg args.anchorStart
    have hself : candidateStart byMonthDay cursor ≤ candidate args byMonthDay cursor := by
      rw [candidate_eq]
      omega
    have hrest : (if args.passes (addUTCMonths cursor args.interval) then
          monthlyCandidates args byMonthDay fuel (addUTCMonths cursor args.interval)
          else []).Pairwise (· < ·) ∧
        ∀ e ∈ (if args.passes (addUTCMonths cursor args.interval) then
          monthlyCandidates args byMonthDay fuel (addUTCMonths cursor args.interval) else []),
            candidate args byMonthDay cursor < e := by
      split
      · exact ⟨hsorted, fun e he => hnext.trans_le (hle e he)⟩
      · refine ⟨.nil, fun e he => ?_⟩
        cases he
    unfold monthlyCandidates
    dsimp only
    split
    · refine ⟨.cons hrest.2 hrest.1, fun e he => ?_⟩
      rcases List.mem_cons.mp he with rfl | he
      · exact hself
      · exact hself.trans (hrest.2 e he).le
    · exact ⟨hrest.1, fun e he => hself.trans (hrest.2 e he).le⟩

theorem mem_dates_monthly (hrule : args.rule.frequency = .monthly) :
    d ∈ dates args args.rounds ↔ bookable args d = true ∧ Reaches args d := by
  unfold dates candidates
  rw [hrule]
  rw [List.mem_filter, and_comm]
  refine and_congr_right fun _ => (mem_monthlyCandidates (j := 0)).trans ⟨?_, ?_⟩
  · rintro ⟨k, _, hall, hmonth, hd⟩
    rw [Nat.zero_add] at hmonth hd
    refine ⟨k, ?_, hmonth, hd⟩
    cases k with
    | zero => exact .inl rfl
    | succ k =>
      have hlast := hall k (Nat.lt_succ_self k)
      rw [Nat.zero_add] at hlast
      exact .inr hlast
  · rintro ⟨k, hk, hmonth, hd⟩
    refine ⟨k, ?_, ?_, by rwa [Nat.zero_add], by rwa [Nat.zero_add]⟩
    · rcases hk with rfl | hpasses
      · unfold ExpandArgs.rounds
        omega
      · have hle := le_cursorAt args k
        refine lt_rounds ?_ hpasses
        unfold msPerDay at hle ⊢
        omega
    · intro i hi
      rcases hk with rfl | hpasses
      · cases hi
      · exact passes_of_le (cursorAt_mono (by omega)) hpasses

variable (args) in
theorem ruleMonth_lt (h : j < k) : ruleMonth args j < ruleMonth args k := by
  have hmul : args.interval * (j : Int) < args.interval * k :=
    Int.mul_lt_mul_of_pos_left (by omega) (one_le_interval args)
  unfold ruleMonth
  omega

/-! ## The due instants -/

theorem mem_dueList : d ∈ dueList args ↔ Due args d := by
  unfold dueList
  cases hrule : args.rule.frequency with
  | daily => exact mem_dates_daily hrule
  | weekly =>
    dsimp only
    rw [List.mem_dedup]
    exact mem_dates_weekly hrule
  | monthly =>
    unfold Due RuleInstant
    rw [hrule]
    rw [List.mem_filter, List.mem_map]
    refine and_congr_left fun hbookable => ⟨?_, ?_⟩
    · rintro ⟨k, hk, rfl⟩
      have hdays := (List.mem_filter.mp hk).2
      rw [Bool.and_eq_true, decide_eq_true_eq, decide_eq_true_eq] at hdays
      exact ⟨k, hdays.1, hdays.2, rfl⟩
    · rintro ⟨k, hfirst, hlast, rfl⟩
      refine ⟨k, List.mem_filter.mpr ⟨List.mem_range.mpr ?_, ?_⟩, rfl⟩
      · cases k with
        | zero =>
          unfold ExpandArgs.rounds
          omega
        | succ k =>
          refine lt_rounds ?_ (bookable_iff.mp hbookable).2.2.1
          have hanchor := (monthOf_spec (day args.anchorStart)).2
          have hmonths := monthStart_add (monthOf (day args.anchorStart) + 1) k
          have hmonth : monthStart (monthOf (day args.anchorStart) + 1 + k) ≤
              monthStart (ruleMonth args (k + 1)) := by
            have hk := le_interval_mul args (k + 1)
            rcases Int.lt_or_eq_of_le (show monthOf (day args.anchorStart) + 1 + k ≤
                ruleMonth args (k + 1) by
              unfold ruleMonth
              omega) with hlt | heq
            · exact (monthStart_lt hlt).le
            · rw [heq]
          have hsplit := day_timeWithinDay args.anchorStart
          unfold atTimeOfAnchor
          unfold msPerDay at hsplit ⊢
          omega
      · rw [Bool.and_eq_true, decide_eq_true_eq, decide_eq_true_eq]
        exact ⟨hfirst, hlast⟩

section

variable (args : ExpandArgs)

theorem dueList_sorted : (dueList args).Pairwise (· < ·) := by
  unfold dueList
  cases hrule : args.rule.frequency with
  | daily =>
    unfold dates candidates
    rw [hrule]
    exact (dailyCandidates_sorted _ _).filter _
  | weekly =>
    have hsorted : (dates args args.rounds).Pairwise (· ≤ ·) := by
      unfold dates candidates
      rw [hrule]
      exact (weeklyCandidates_sorted _ _).filter _
    have hdedup := hsorted.sublist (List.dedup_sublist _)
    exact hdedup.imp₂ (fun a b hle hne => lt_of_le_of_ne hle hne) (List.nodup_dedup _)
  | monthly =>
    refine List.Pairwise.filter _ (List.pairwise_map.mpr (List.Pairwise.filter _ ?_))
    refine List.pairwise_lt_range.imp fun hjk => ?_
    have := monthStart_lt (ruleMonth_lt args hjk)
    unfold atTimeOfAnchor msPerDay
    omega

theorem dueBefore_eq (d : Int) : dueBefore args d = countBefore (dueList args) d := by
  have hset : {e | Due args e ∧ e < d} =
      (((dueList args).filter fun e => decide (e < d)).toFinset : Set Int) := by
    ext e
    simp [mem_dueList]
  unfold dueBefore
  rw [hset, Set.ncard_coe_finset, List.toFinset_card_of_nodup]
  · rfl
  · have hnodup : (dueList args).Nodup := (dueList_sorted args).imp fun h => h.ne
    exact hnodup.filter _

theorem exactExpansion_iff_take : ExactExpansion args ↔ StaysInRange args ∧
    (dates args args.rounds).take args.limit = (dueList args).take args.limit := by
  unfold ExactExpansion
  constructor
  · rintro ⟨full, hsorted, hmem, hreturns⟩
    have hfull : full = dueList args :=
      eq_of_mem_iff hsorted (dueList_sorted args) fun d => (hmem d).trans mem_dueList.symm
    have hstays := staysInRange_of_returns hreturns allDates_numbered
    refine ⟨hstays, ?_⟩
    rw [← hfull]
    exact numbered_inj ((returns_dates hstays).unique hreturns)
  · rintro ⟨hstays, h⟩
    refine ⟨dueList args, dueList_sorted args, fun d => mem_dueList, ?_⟩
    rw [← h]
    exact returns_dates hstays

end

end

/-- Every 15th from the 31st of January 2026 at ten o'clock, to the end of March. -/
def midMonth : ExpandArgs where
  rule := { frequency := .monthly, byMonthDay := some 15 }
  anchorStart := 1769853600000
  durationMinutes := 60
  materializedThrough := 1774951200000

end Prequest.Recurrence
