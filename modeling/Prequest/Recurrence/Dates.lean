import Prequest.Recurrence.Expand

/-!
# The dates behind an expansion

The loops of `expand` stop at the end of the window and at the cap, and number what they put out.
Over all times, without numbers, cap and the bounds of a `Date`, each of them walks along some
positions and lists the bookable dates among its candidates.

* `StaysInRange`: the positions that a loop comes to before it ends are times of dates.
* `leavesWindow_daily`, `leavesWindow_weekly`, `leavesWindow_monthly`: the rounds of a window go
  past it.
-/

namespace Prequest.Recurrence

open Prequest.Lib Prequest.Lib.Calendar

section

variable (args : ExpandArgs)

def bookable (d : Int) : Bool :=
  inRange d && decide (args.anchorStart ≤ d) && args.passes d && !args.isHoliday d

def numbered (index : Nat) (ds : List Int) : List Occurrence :=
  (ds.zipIdx index).map fun d => args.occurrence (some d.1) d.2

/-- The date of every round of `daily`. -/
def dailyCandidates : Nat → Int → List Int
  | 0, _ => []
  | fuel + 1, cursor =>
      cursor :: dailyCandidates fuel (setUTCDate cursor (getUTCDate cursor + args.interval))

def dayDate (weekStart dow : Int) : Int :=
  setTimeOfDay (setUTCDate weekStart (getUTCDate weekStart + dow)) args.anchorStart

/-- The days of every week of `weekly`. -/
def weeklyCandidates : Nat → Int → List Int
  | 0, _ => []
  | fuel + 1, weekStart =>
      (byDayDows args).map (dayDate args weekStart) ++
        weeklyCandidates fuel (setUTCDate weekStart (getUTCDate weekStart + 7 * args.interval))

def candidate (byMonthDay cursor : Int) : Int :=
  setTimeOfDay (setUTCDate cursor byMonthDay) args.anchorStart

def ofMonth (byMonthDay cursor : Int) : Bool :=
  monthOf (day (candidate args byMonthDay cursor)) % 12 == monthOf (day cursor) % 12

/-- The candidates of `monthly` that are of their month. Its rounds end with the window. -/
def monthlyCandidates (byMonthDay : Int) : Nat → Int → List Int
  | 0, _ => []
  | fuel + 1, cursor =>
      let next := addUTCMonths cursor args.interval
      let rest := if args.passes next then monthlyCandidates byMonthDay fuel next else []
      if ofMonth args byMonthDay cursor then candidate args byMonthDay cursor :: rest else rest

def candidates (fuel : Nat) : List Int :=
  match args.rule.frequency with
  | .daily => dailyCandidates args fuel args.anchorStart
  | .weekly => weeklyCandidates args fuel (startOfWeek args.anchorStart)
  | .monthly => monthlyCandidates args (dayOfRule args) fuel args.anchorStart

def dates (fuel : Nat) : List Int := (candidates args fuel).filter (bookable args)

/-- A round for each day of the window, and those before and after it. -/
def ExpandArgs.rounds : Nat :=
  ((args.materializedThrough - args.anchorStart) / msPerDay).toNat + 3

/-! ## The walk -/

/-- The cursors of `monthly`. -/
def cursors : Nat → Int → List Int
  | 0, _ => []
  | fuel + 1, cursor => cursor :: cursors fuel (addUTCMonths cursor args.interval)

/-- The times that a loop computes from its start on. -/
def positions (fuel : Nat) : List Int :=
  match args.rule.frequency with
  | .daily => dailyCandidates args fuel args.anchorStart
  | .weekly => weeklyCandidates args fuel (startOfWeek args.anchorStart)
  | .monthly => cursors args fuel args.anchorStart

/-- A day of the first week that is before the anchor is passed over. -/
def goesOnWeek (p : Int) : Bool := decide (p < args.anchorStart) || args.passes p

/-- The first cursor is not asked whether it passes. -/
def goesOnMonth (p : Int) : Bool := p == args.anchorStart || args.passes p

def emitsMonth (byMonthDay p : Int) : Bool :=
  ofMonth args byMonthDay p && bookable args (candidate args byMonthDay p)

/-- The loop goes on after the position. -/
def goesOn : Int → Bool :=
  match args.rule.frequency with
  | .daily => args.passes
  | .weekly => goesOnWeek args
  | .monthly => goesOnMonth args

/-- The loop puts an occurrence out at the position. -/
def emits : Int → Bool :=
  match args.rule.frequency with
  | .daily | .weekly => bookable args
  | .monthly => emitsMonth args (dayOfRule args)

/-- Every position that a walk comes to before `n` of them have been counted is the time of a
date. -/
def InRangeAlong (goesOn emits : Int → Bool) (n : Nat) (ps : List Int) : Prop :=
  ∀ before p after, ps = before ++ p :: after → (∀ q ∈ before, goesOn q = true) →
    before.countP emits < n → inRange p = true

/-- The times that `expand` computes before it ends are those of dates. -/
structure StaysInRange : Prop where
  anchor : 0 < args.limit → inRange args.anchorStart = true
  week : args.rule.frequency = .weekly → 0 < args.limit →
    inRange (startOfWeek args.anchorStart) = true
  walk : ∀ fuel, InRangeAlong (goesOn args) (emits args) args.limit (positions args fuel)

end

theorem inRangeAlong_nil (goesOn emits : Int → Bool) (n : Nat) : InRangeAlong goesOn emits n [] := by
  intro before p after h
  cases before <;> cases h

variable {ps : List Int} {goesOn emits : Int → Bool}

theorem inRangeAlong_of_le {n i : Nat} (h : n ≤ i) : InRangeAlong goesOn emits (n - i) ps := by
  intro _ _ _ _ _ hlt
  omega

theorem inRangeAlong_cons {n : Nat} {p : Int}
    (hn : 0 < n) : InRangeAlong goesOn emits n (p :: ps) ↔ inRange p = true ∧
      (goesOn p = true → InRangeAlong goesOn emits (n - if emits p then 1 else 0) ps) := by
  constructor
  · intro h
    refine ⟨h [] p ps rfl (fun q hq => absurd hq List.not_mem_nil) hn, ?_⟩
    intro hp before q after hps hbefore hcount
    refine h (p :: before) q after (by rw [hps]; rfl) (List.forall_mem_cons.mpr ⟨hp, hbefore⟩) ?_
    rw [List.countP_cons]
    omega
  · rintro ⟨hp, hrest⟩ before q after hps hbefore hcount
    cases before with
    | nil =>
      cases hps
      exact hp
    | cons p' before =>
      obtain ⟨rfl, hafter⟩ := List.cons.inj hps
      obtain ⟨hgoes, hbefore⟩ := List.forall_mem_cons.mp hbefore
      rw [List.countP_cons] at hcount
      exact hrest hgoes before q after hafter hbefore (by omega)

section

variable {args : ExpandArgs} {d e : Int} {index : Nat} {ds : List Int}

theorem passes_of_le (hle : d ≤ e) (h : args.passes e = true) : args.passes d = true := by
  unfold ExpandArgs.passes at h ⊢
  rw [Bool.and_eq_true, decide_eq_true_eq] at h ⊢
  refine ⟨?_, hle.trans h.2⟩
  have huntil := h.1
  cases hrule : args.rule.untilAt with
  | none => rfl
  | some until' =>
    rw [hrule] at huntil
    simp only [decide_eq_true_eq] at huntil ⊢
    exact hle.trans huntil

theorem bookable_iff : bookable args d = true ↔
    inRange d = true ∧ args.anchorStart ≤ d ∧ args.passes d = true ∧ args.isHoliday d = false := by
  simp [bookable, and_assoc]

theorem bookable_of_inRange (h : inRange d = true) (hanchor : args.anchorStart ≤ d)
    (hpasses : args.passes d = true) : bookable args d = !args.isHoliday d := by
  unfold bookable
  rw [h, hpasses, decide_eq_true hanchor]
  rfl

@[simp] theorem numbered_nil : numbered args index [] = [] := rfl

@[simp] theorem numbered_cons : numbered args index (d :: ds) =
    args.occurrence (some d) index :: numbered args (index + 1) ds := rfl

theorem numbered_of_prefix {ds' : List Int} (h : ds <+: ds') :
    numbered args index ds <+: numbered args index ds' := by
  obtain ⟨rest, rfl⟩ := h
  unfold numbered
  rw [List.zipIdx_append, List.map_append]
  exact List.prefix_append _ _

variable (args index ds) in
theorem startAt_numbered : (numbered args index ds).map Occurrence.startAt = ds.map some := by
  unfold numbered
  rw [List.map_map]
  conv_rhs => rw [← List.zipIdx_map_fst index ds, List.map_map]
  rfl

theorem numbered_inj {ds' : List Int} (h : numbered args index ds = numbered args index ds') :
    ds = ds' := by
  refine List.map_injective_iff.mpr (Option.some_injective Int) ?_
  rw [← startAt_numbered args index ds, h, startAt_numbered]

theorem numbered_take_cons (hindex : index < args.limit) :
    numbered args index ((d :: ds).take (args.limit - index)) = args.occurrence (some d) index ::
      numbered args (index + 1) (ds.take (args.limit - (index + 1))) := by
  obtain ⟨n, hn⟩ : ∃ n, args.limit - index = n + 1 := ⟨args.limit - index - 1, by omega⟩
  have hn' : args.limit - (index + 1) = n := by omega
  rw [hn, hn', List.take_succ_cons, numbered_cons]

theorem numbered_take_limit (hindex : args.limit ≤ index) :
    numbered args index (ds.take (args.limit - index)) = [] := by
  rw [Nat.sub_eq_zero_of_le hindex, List.take_zero, numbered_nil]

theorem filter_bookable_eq_nil (hd : args.passes d = false) (h : ∀ e ∈ ds, d ≤ e) :
    ds.filter (bookable args) = [] := by
  refine List.filter_eq_nil_iff.mpr fun e he hbookable => ?_
  have hpasses := passes_of_le (h e he) (bookable_iff.mp hbookable).2.2.1
  rw [hd] at hpasses
  cases hpasses

/-- No occurrence of the list is at an invalid date. -/
def AllDates (out : List Occurrence) : Prop := ∀ o ∈ out, o.startAt ≠ none

theorem allDates_numbered : AllDates (numbered args index ds) := by
  intro o ho hnone
  have hmem := List.mem_map_of_mem (f := Occurrence.startAt) ho
  rw [startAt_numbered, hnone] at hmem
  obtain ⟨d, _, hd⟩ := List.mem_map.mp hmem
  cases hd

/-- The positions come to one that is past the window. -/
def LeavesWindow (args : ExpandArgs) (ps : List Int) : Prop :=
  ∃ p ∈ ps, args.anchorStart ≤ p ∧ args.passes p = false

theorem LeavesWindow.tail (h : LeavesWindow args (d :: ds))
    (hd : d < args.anchorStart ∨ args.passes d = true) : LeavesWindow args ds := by
  obtain ⟨p, hp, hanchor, hpasses⟩ := h
  rcases List.mem_cons.mp hp with rfl | hp
  · rcases hd with hd | hd
    · omega
    · rw [hd] at hpasses
      cases hpasses
  · exact ⟨p, hp, hanchor, hpasses⟩

/-! ## Days -/

variable {fuel : Nat} {cursor : Int}

theorem le_nextDay (args : ExpandArgs) (cursor : Int) :
    cursor + msPerDay ≤ setUTCDate cursor (getUTCDate cursor + args.interval) := by
  have hmul := msPerDay_mul_le (one_le_interval args)
  rw [setUTCDate_add]
  unfold msPerDay at hmul ⊢
  omega

theorem le_dailyCandidates : ∀ e ∈ dailyCandidates args fuel cursor, cursor ≤ e := by
  induction fuel generalizing cursor with
  | zero =>
    intro e he
    cases he
  | succ fuel ih =>
    intro e he
    rcases List.mem_cons.mp he with rfl | he
    · exact le_refl _
    · have hnext := le_nextDay args cursor
      have := ih e he
      unfold msPerDay at hnext
      omega

/-! ## Weeks -/

variable {weekStart dow : Int}

theorem dayDate_eq (args : ExpandArgs) (weekStart dow : Int) : dayDate args weekStart dow =
    msPerDay * (day weekStart + dow) + timeWithinDay args.anchorStart := by
  unfold dayDate setTimeOfDay
  rw [day_setUTCDate]
  unfold getUTCDate
  congr 2
  omega

theorem day_nextWeek (weekStart : Int) :
    day (setUTCDate weekStart (getUTCDate weekStart + 7 * args.interval)) =
      day weekStart + 7 * args.interval := by
  rw [day_setUTCDate]
  unfold getUTCDate
  omega

theorem le_nextWeek (args : ExpandArgs) (weekStart : Int) :
    weekStart ≤ setUTCDate weekStart (getUTCDate weekStart + 7 * args.interval) := by
  have hinterval := one_le_interval args
  have hmul := msPerDay_mul_le (show 0 ≤ 7 * args.interval by omega)
  rw [setUTCDate_add]
  omega

theorem mem_weeklyCandidates : d ∈ weeklyCandidates args fuel weekStart ↔
      ∃ k < fuel, ∃ dow ∈ byDayDows args,
        d = msPerDay * (day weekStart + 7 * args.interval * k + dow) +
          timeWithinDay args.anchorStart := by
  have hstep : ∀ k : Nat, 7 * args.interval * ((k + 1 : Nat) : Int) =
      7 * args.interval + 7 * args.interval * k := by
    intro k
    rw [Int.natCast_succ, Int.mul_add, Int.mul_one, Int.add_comm]
  induction fuel generalizing weekStart with
  | zero => simp [weeklyCandidates]
  | succ fuel ih =>
    unfold weeklyCandidates
    refine List.mem_append.trans ((or_congr List.mem_map ih).trans ?_)
    rw [day_nextWeek]
    constructor
    · rintro (⟨dow, hdow, rfl⟩ | ⟨k, hk, dow, hdow, rfl⟩)
      · refine ⟨0, Nat.zero_lt_succ fuel, dow, hdow, ?_⟩
        rw [dayDate_eq]
        simp
      · refine ⟨k + 1, Nat.succ_lt_succ hk, dow, hdow, ?_⟩
        rw [hstep, Int.add_assoc (day weekStart)]
    · rintro ⟨k, hk, dow, hdow, rfl⟩
      cases k with
      | zero =>
        refine .inl ⟨dow, hdow, ?_⟩
        rw [dayDate_eq]
        simp
      | succ k =>
        refine .inr ⟨k, Nat.lt_of_succ_lt_succ hk, dow, hdow, ?_⟩
        rw [hstep, Int.add_assoc (day weekStart) (7 * args.interval)]

theorem dayDate_lt_next (hdow : dow ∈ byDayDows args)
    (he : e ∈ weeklyCandidates args fuel
      (setUTCDate weekStart (getUTCDate weekStart + 7 * args.interval))) :
    dayDate args weekStart dow < e := by
  obtain ⟨k, _, dow', hdow', rfl⟩ := mem_weeklyCandidates.mp he
  have hinterval := one_le_interval args
  have hbounds := byDayDows_bounds hdow
  have hbounds' := byDayDows_bounds hdow'
  have hk : 0 ≤ 7 * args.interval * (k : Int) :=
    Int.mul_nonneg (by omega) (Int.natCast_nonneg k)
  have hmul := msPerDay_mul_le (show day weekStart + dow + 1 ≤
      day weekStart + 7 * args.interval + 7 * args.interval * k + dow' by omega)
  rw [dayDate_eq, day_nextWeek]
  rw [Int.mul_add _ _ 1, Int.mul_one] at hmul
  unfold msPerDay at hmul ⊢
  omega

theorem weeklyCandidates_sorted (fuel : Nat) (weekStart : Int) :
    (weeklyCandidates args fuel weekStart).Pairwise (· ≤ ·) := by
  induction fuel generalizing weekStart with
  | zero => exact .nil
  | succ fuel ih =>
    unfold weeklyCandidates
    refine List.pairwise_append.mpr ⟨?_, ih _, ?_⟩
    · refine List.pairwise_map.mpr (byDayDows_sorted.imp ?_)
      intro dow dow' hle
      have := msPerDay_mul_le (Int.add_le_add_left hle (day weekStart))
      rw [dayDate_eq, dayDate_eq]
      omega
    · intro d hd e he
      obtain ⟨dow, hdow, rfl⟩ := List.mem_map.mp hd
      exact (dayDate_lt_next hdow he).le

/-! ## Months -/

variable {byMonthDay : Int}

def candidateStart (byMonthDay cursor : Int) : Int :=
  msPerDay * (monthStart (monthOf (day cursor)) + byMonthDay - 1)

theorem candidate_eq (byMonthDay cursor : Int) :
    candidate args byMonthDay cursor =
      candidateStart byMonthDay cursor + timeWithinDay args.anchorStart := by
  unfold candidate setTimeOfDay candidateStart
  rw [day_setUTCDate]

theorem candidate_lt_next (args : ExpandArgs) (byMonthDay cursor : Int) :
    candidate args byMonthDay cursor <
      candidateStart byMonthDay (addUTCMonths cursor args.interval) := by
  have hmonth : monthOf (day cursor) < monthOf (day (addUTCMonths cursor args.interval)) := by
    have := le_monthOf_addUTCMonths cursor args.interval
    have := one_le_interval args
    omega
  have hmul := msPerDay_mul_le (show monthStart (monthOf (day cursor)) + byMonthDay - 1 + 1 ≤
      monthStart (monthOf (day (addUTCMonths cursor args.interval))) + byMonthDay - 1 by
    have := monthStart_lt hmonth
    omega)
  have hlt := timeWithinDay_lt args.anchorStart
  rw [candidate_eq]
  unfold candidateStart
  rw [Int.mul_add _ _ 1, Int.mul_one] at hmul
  omega

/-! ## Rounds enough -/

theorem mem_dailyCandidates : d ∈ dailyCandidates args fuel cursor ↔
      ∃ k < fuel, d = cursor + msPerDay * (args.interval * k) := by
  induction fuel generalizing cursor with
  | zero => simp [dailyCandidates]
  | succ fuel ih =>
    unfold dailyCandidates
    refine List.mem_cons.trans ((or_congr_right ih).trans ?_)
    rw [setUTCDate_add]
    constructor
    · rintro (rfl | ⟨k, hk, rfl⟩)
      · exact ⟨0, Nat.zero_lt_succ fuel, by simp⟩
      · refine ⟨k + 1, Nat.succ_lt_succ hk, ?_⟩
        rw [Int.natCast_succ, Int.mul_add, Int.mul_one, Int.mul_add]
        omega
    · rintro ⟨k, hk, rfl⟩
      cases k with
      | zero => exact .inl (by simp)
      | succ k =>
        refine .inr ⟨k, Nat.lt_of_succ_lt_succ hk, ?_⟩
        rw [Int.natCast_succ, Int.mul_add, Int.mul_one, Int.mul_add]
        omega

variable (args) in
theorem le_interval_mul (k : Nat) : (k : Int) ≤ args.interval * k := by
  have h := Int.mul_le_mul_of_nonneg_right (one_le_interval args) (Int.natCast_nonneg k)
  omega

theorem lt_rounds {k : Nat} (h : args.anchorStart + msPerDay * ((k : Int) - 2) ≤ d)
    (hd : args.passes d = true) : k < args.rounds := by
  have hwindow := le_materializedThrough hd
  unfold ExpandArgs.rounds
  unfold msPerDay at h ⊢
  omega

theorem exists_rounds (args : ExpandArgs) : ∃ n, args.rounds = n + 1 :=
  ⟨((args.materializedThrough - args.anchorStart) / msPerDay).toNat + 2, rfl⟩

theorem leavesWindow_of_mem (hmem : d ∈ ps)
    (h : args.anchorStart + msPerDay * ((args.rounds : Int) - 2) ≤ d) : LeavesWindow args ps := by
  refine ⟨d, hmem, ?_, ?_⟩
  · unfold ExpandArgs.rounds at h
    unfold msPerDay at h
    omega
  · rw [Bool.eq_false_iff]
    intro hpasses
    exact Nat.lt_irrefl _ (lt_rounds h hpasses)

theorem leavesWindow_daily (args : ExpandArgs) :
    LeavesWindow args (dailyCandidates args args.rounds args.anchorStart) := by
  obtain ⟨n, hn⟩ := exists_rounds args
  have hmul := msPerDay_mul_le (le_interval_mul args n)
  refine leavesWindow_of_mem (mem_dailyCandidates.mpr ⟨n, by omega, rfl⟩) ?_
  rw [hn]
  unfold msPerDay at hmul ⊢
  omega

theorem day_startOfWeek (t : Int) : day (startOfWeek t) = day t - weekDay t := by
  have hzero : startOfWeek t = msPerDay * (day t - weekDay t) + 0 := by
    unfold startOfWeek
    rw [day_setUTCDate]
    unfold getUTCDate
    rw [Int.add_zero]
    congr 1
    omega
  rw [hzero]
  exact day_add _ (le_refl 0) (by decide)

theorem timeWithinDay_startOfWeek (t : Int) : timeWithinDay (startOfWeek t) = 0 := by
  have hzero := timeWithinDay_add (day (setUTCDate t (getUTCDate t - weekDay t))) (le_refl 0)
    (by decide)
  rwa [Int.add_zero] at hzero

theorem leavesWindow_weekly (args : ExpandArgs) :
    LeavesWindow args (weeklyCandidates args args.rounds (startOfWeek args.anchorStart)) := by
  obtain ⟨n, hn⟩ := exists_rounds args
  obtain ⟨dow, hdow⟩ := List.exists_mem_of_ne_nil _ (byDayDows_ne_nil args)
  refine leavesWindow_of_mem (mem_weeklyCandidates.mpr ⟨n, by omega, dow, hdow, rfl⟩) ?_
  have hbounds := (byDayDows_bounds hdow).1
  have hweek : weekDay args.anchorStart ≤ 6 := by
    unfold weekDay
    omega
  have hmul := le_interval_mul args n
  have hassoc : 7 * args.interval * (n : Int) = 7 * (args.interval * n) := Int.mul_assoc _ _ _
  have hsplit := day_timeWithinDay args.anchorStart
  have htwo : 2 ≤ n := by
    unfold ExpandArgs.rounds at hn
    omega
  rw [day_startOfWeek, hassoc, hn]
  unfold msPerDay at hsplit ⊢
  omega

theorem cursors_leave (n : Nat) (hanchor : args.anchorStart ≤ cursor)
    (h : args.materializedThrough < cursor + msPerDay * n) :
    LeavesWindow args (cursors args (n + 1) cursor) := by
  induction n generalizing cursor with
  | zero =>
    refine ⟨cursor, List.mem_cons_self, hanchor, ?_⟩
    rw [Bool.eq_false_iff]
    intro hpasses
    have := le_materializedThrough hpasses
    omega
  | succ n ih =>
    have hle := lt_addUTCMonths cursor (show 0 < args.interval from one_le_interval args)
    have hnext : LeavesWindow args (cursors args (n + 1) (addUTCMonths cursor args.interval)) := by
      unfold msPerDay at hle h ih
      exact ih (by omega) (by omega)
    obtain ⟨p, hp, hleaves⟩ := hnext
    exact ⟨p, List.mem_cons_of_mem cursor hp, hleaves⟩

theorem leavesWindow_monthly (args : ExpandArgs) :
    LeavesWindow args (cursors args args.rounds args.anchorStart).tail := by
  have hle := lt_addUTCMonths args.anchorStart (show 0 < args.interval from one_le_interval args)
  refine cursors_leave (((args.materializedThrough - args.anchorStart) / msPerDay).toNat + 1) ?_ ?_
  · unfold msPerDay at hle
    omega
  · unfold msPerDay at hle ⊢
    omega

end

end Prequest.Recurrence
