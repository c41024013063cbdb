import Prequest.Recurrence.Dates

/-!
# The loops on the walk

On a walk that stays in the range of dates each loop lists the bookable dates among its candidates.
Where the walk leaves the range the loop throws, puts out an invalid date or does not end.

* `returns_dates`: an expansion whose walk stays in the range of dates returns them.
* `staysInRange_of_returns`: an expansion that returns no invalid date has such a walk.
-/

namespace Prequest.Recurrence

open Prequest.Lib Prequest.Lib.Calendar

section

variable {args : ExpandArgs} {d : Int} {index fuel : Nat} {cursor weekStart dow byMonthDay : Int}
  {out : List Occurrence} {nextWeek : Nat → Expansion} {dows : List Int}

/-! ## Days -/

/-- A round of `daily` at a date. -/
theorem daily_some (hrange : inRange cursor = true) (hanchor : args.anchorStart ≤ cursor) :
    daily args (fuel + 1) (some cursor) index =
      if args.passes cursor && index < args.limit then
        let next := timeClip (setUTCDate cursor (getUTCDate cursor + args.interval))
        if bookable args cursor then
          (daily args fuel next (index + 1)).cons (args.occurrence (some cursor) index)
        else daily args fuel next index
      else .returned [] := by
  rw [daily, passesDate_some]
  split
  · rename_i h
    rw [Bool.and_eq_true] at h
    rw [isHolidayDate_some, bookable_of_inRange hrange hanchor h.1]
    cases args.isHoliday cursor <;> rfl
  · rfl

theorem daily_returned (hanchor : args.anchorStart ≤ cursor) (hrange : -maxTime ≤ cursor)
    (hwalk : InRangeAlong args.passes (bookable args) (args.limit - index)
      (dailyCandidates args fuel cursor))
    (hleaves : LeavesWindow args (dailyCandidates args fuel cursor)) :
    daily args fuel (timeClip cursor) index = .returned (numbered args index
      (((dailyCandidates args fuel cursor).filter (bookable args)).take (args.limit - index))) := by
  induction fuel generalizing cursor index with
  | zero =>
    obtain ⟨p, hp, _⟩ := hleaves
    cases hp
  | succ fuel ih =>
    have hle := le_nextDay args cursor
    unfold msPerDay at hle
    by_cases hindex : index < args.limit
    swap
    · rw [numbered_take_limit (not_lt.mp hindex), daily, if_neg]
      rw [Bool.and_eq_true, decide_eq_true_eq]
      exact fun h => hindex h.2
    rw [dailyCandidates] at hwalk hleaves ⊢
    obtain ⟨hcursor, hrest⟩ := (inRangeAlong_cons (by omega)).mp hwalk
    rw [timeClip_of_inRange hcursor, daily_some hcursor hanchor]
    cases hpasses : args.passes cursor with
    | false =>
      rw [filter_bookable_eq_nil hpasses]
      · simp
      · rw [← dailyCandidates]
        exact le_dailyCandidates
    | true =>
      have hnext := hrest hpasses
      have hleaves := hleaves.tail (.inr hpasses)
      rw [decide_eq_true hindex, Bool.and_self, if_pos rfl]
      simp only
      split
      · rename_i hbookable
        rw [if_pos hbookable, Nat.sub_sub] at hnext
        rw [ih (by omega) (by omega) hnext hleaves, List.filter_cons_of_pos hbookable,
          numbered_take_cons hindex]
        rfl
      · rename_i hbookable
        rw [if_neg hbookable, Nat.sub_zero] at hnext
        rw [ih (by omega) (by omega) hnext hleaves, List.filter_cons_of_neg hbookable]

/-- A day without a date throws, or puts an invalid date out. -/
theorem daily_none (hindex : index < args.limit) (h : daily args fuel none index = .returned out) :
    ¬AllDates out := by
  intro hout
  cases fuel with
  | zero => cases h
  | succ fuel =>
    rw [daily, passesDate_none, decide_eq_true hindex, Bool.and_self, if_pos rfl] at h
    rcases isHolidayDate_none args with hthrows | hlisted
    · rw [hthrows] at h
      cases h
    · rw [hlisted] at h
      obtain ⟨rest, _, rfl⟩ := Expansion.cons_eq_returned.mp h
      exact hout _ List.mem_cons_self rfl

theorem inRangeAlong_daily (hanchor : args.anchorStart ≤ cursor) (hrange : -maxTime ≤ cursor)
    (h : daily args fuel (timeClip cursor) index = .returned out) (hout : AllDates out)
    (fuel' : Nat) : InRangeAlong args.passes (bookable args)
      (args.limit - index) (dailyCandidates args fuel' cursor) := by
  induction fuel generalizing cursor index out fuel' with
  | zero => cases h
  | succ fuel ih =>
    cases fuel' with
    | zero => exact inRangeAlong_nil _ _ _
    | succ fuel' =>
      by_cases hindex : index < args.limit
      swap
      · exact inRangeAlong_of_le (not_lt.mp hindex)
      have hle := le_nextDay args cursor
      unfold msPerDay at hle
      have hcursor : inRange cursor = true := by
        by_contra hcursor
        rw [timeClip_of_not hcursor] at h
        exact daily_none hindex h hout
      rw [timeClip_of_inRange hcursor, daily_some hcursor hanchor] at h
      rw [dailyCandidates, inRangeAlong_cons (by omega)]
      refine ⟨hcursor, fun hpasses => ?_⟩
      rw [hpasses, decide_eq_true hindex, Bool.and_self, if_pos rfl] at h
      simp only at h
      split at h
      · rename_i hbookable
        rw [if_pos hbookable, Nat.sub_sub]
        obtain ⟨rest, hrest, rfl⟩ := Expansion.cons_eq_returned.mp h
        exact ih (by omega) (by omega) hrest (List.forall_mem_of_forall_mem_cons hout) fuel'
      · rename_i hbookable
        rw [if_neg hbookable, Nat.sub_zero]
        exact ih (by omega) (by omega) h hout fuel'

/-! ## Weeks -/

/-- The days of a week that starts at midnight are later than its start, and so is the time between
the two setters: if one of the three is past the range, the day is. -/
theorem dateOfDay_timeClip (args : ExpandArgs) (hrange : -maxTime ≤ weekStart)
    (hclock : timeWithinDay weekStart = 0) (hdow : 0 ≤ dow) :
    dateOfDay args (timeClip weekStart) dow = timeClip (dayDate args weekStart dow) := by
  have hmul := msPerDay_mul_le hdow
  have hsplit := day_timeWithinDay weekStart
  have hpos := timeWithinDay_nonneg args.anchorStart
  have hmidnight := setUTCDate_add weekStart dow
  have hday := dayDate_eq args weekStart dow
  rw [Int.mul_add] at hday
  unfold dateOfDay
  rw [moved_timeClip hrange (by omega), moved_timeClip (by omega)]
  · rfl
  · show _ ≤ dayDate args weekStart dow
    omega

/-- A round of `week` at a date. -/
theorem week_some {date : JsDate} (hdate : dateOfDay args date dow = some d)
    (hrange : inRange d = true) (hindex : index < args.limit) :
    week args date nextWeek (dow :: dows) index =
      if d < args.anchorStart then week args date nextWeek dows index
      else if args.passes d = false then .returned []
      else if bookable args d then
        (if args.limit ≤ index + 1 then .returned []
          else week args date nextWeek dows (index + 1)).cons (args.occurrence (some d) index)
      else week args date nextWeek dows index := by
  rw [week, hdate]
  simp only [Option.any_some, decide_eq_true_eq, passesDate_some, Bool.not_eq_true']
  split
  · rfl
  rename_i hanchor
  split
  · rfl
  rename_i hpasses
  rw [Bool.not_eq_false] at hpasses
  rw [isHolidayDate_some, bookable_of_inRange hrange (not_lt.mp hanchor) hpasses]
  cases args.isHoliday d with
  | false => rfl
  | true =>
    simp only [Bool.not_true, Bool.false_eq_true, if_false]
    exact if_neg (not_le.mpr hindex)

/-- A day of a week without a date throws, or puts an invalid date out. -/
theorem week_none {date : JsDate} (hdate : dateOfDay args date dow = none)
    (h : week args date nextWeek (dow :: dows) index = .returned out) : ¬AllDates out := by
  intro hout
  rw [week, hdate] at h
  simp only [Option.any_none, Bool.false_eq_true, if_false, passesDate_none, Bool.not_true] at h
  rcases isHolidayDate_none args with hthrows | hlisted
  · rw [hthrows] at h
    cases h
  · rw [hlisted] at h
    obtain ⟨rest, _, rfl⟩ := Expansion.cons_eq_returned.mp h
    exact hout _ List.mem_cons_self rfl

theorem goesOnWeek_iff : goesOnWeek args d = true ↔
    d < args.anchorStart ∨ args.passes d = true := by
  simp [goesOnWeek]

theorem week_returned {rest : List Int}
    (hrange : -maxTime ≤ weekStart) (hclock : timeWithinDay weekStart = 0)
    (hnext : ∀ i, InRangeAlong (goesOnWeek args) (bookable args) (args.limit - i) rest →
      LeavesWindow args rest → nextWeek i =
        .returned (numbered args i ((rest.filter (bookable args)).take (args.limit - i))))
    (dows : List Int) (hdows : ∀ dow ∈ dows, 0 ≤ dow) (index : Nat) (hindex : index < args.limit)
    (hsorted : (dows.map (dayDate args weekStart) ++ rest).Pairwise (· ≤ ·))
    (hwalk : InRangeAlong (goesOnWeek args) (bookable args) (args.limit - index)
      (dows.map (dayDate args weekStart) ++ rest))
    (hleaves : LeavesWindow args (dows.map (dayDate args weekStart) ++ rest)) :
    week args (timeClip weekStart) nextWeek dows index = .returned (numbered args index
      (((dows.map (dayDate args weekStart) ++ rest).filter (bookable args)).take
        (args.limit - index))) := by
  induction dows generalizing index with
  | nil => exact hnext index hwalk hleaves
  | cons dow dows ih =>
    rw [List.map_cons, List.cons_append] at hsorted hwalk hleaves ⊢
    obtain ⟨hall, hsorted⟩ := List.pairwise_cons.mp hsorted
    obtain ⟨hday, hrest⟩ := (inRangeAlong_cons (by omega)).mp hwalk
    have hdate := dateOfDay_timeClip args hrange hclock (hdows dow List.mem_cons_self)
    have hdows := fun dow' h => hdows dow' (List.mem_cons_of_mem dow h)
    rw [timeClip_of_inRange hday] at hdate
    rw [week_some hdate hday hindex]
    split
    · rename_i hbefore
      have hnot : ¬bookable args (dayDate args weekStart dow) = true := fun h =>
        (bookable_iff.mp h).2.1.not_gt hbefore
      have hwalk := hrest (goesOnWeek_iff.mpr (.inl hbefore))
      rw [if_neg hnot, Nat.sub_zero] at hwalk
      rw [List.filter_cons_of_neg hnot]
      exact ih hdows index hindex hsorted hwalk (hleaves.tail (.inl hbefore))
    split
    · rename_i hpasses
      rw [filter_bookable_eq_nil hpasses (List.forall_mem_cons.mpr ⟨le_refl _, hall⟩)]
      simp
    rename_i hpasses
    rw [Bool.not_eq_false] at hpasses
    have hwalk := hrest (goesOnWeek_iff.mpr (.inr hpasses))
    have hleaves := hleaves.tail (.inr hpasses)
    split
    · rename_i hbookable
      rw [if_pos hbookable, Nat.sub_sub] at hwalk
      rw [List.filter_cons_of_pos hbookable, numbered_take_cons hindex]
      refine Expansion.cons_eq_returned.mpr ⟨_, ?_, rfl⟩
      split
      · rename_i hlimit
        rw [numbered_take_limit hlimit]
      · rename_i hlimit
        exact ih hdows (index + 1) (not_le.mp hlimit) hsorted hwalk hleaves
    · rename_i hbookable
      rw [if_neg hbookable, Nat.sub_zero] at hwalk
      rw [List.filter_cons_of_neg hbookable]
      exact ih hdows index hindex hsorted hwalk hleaves

theorem weekly_returned (hrange : -maxTime ≤ weekStart) (hclock : timeWithinDay weekStart = 0)
    (hwalk : InRangeAlong (goesOnWeek args) (bookable args) (args.limit - index)
      (weeklyCandidates args fuel weekStart))
    (hleaves : LeavesWindow args (weeklyCandidates args fuel weekStart)) :
    weekly args fuel (timeClip weekStart) index = .returned (numbered args index
      (((weeklyCandidates args fuel weekStart).filter (bookable args)).take
        (args.limit - index))) := by
  induction fuel generalizing weekStart index with
  | zero =>
    obtain ⟨p, hp, _⟩ := hleaves
    cases hp
  | succ fuel ih =>
    have hle := le_nextWeek args weekStart
    unfold weekly
    split
    · rename_i hindex
      rw [moved_timeClip hrange hle]
      refine week_returned hrange hclock (fun i hwalk hleaves => ?_) _
        (fun dow hdow => (byDayDows_bounds hdow).1) index hindex
        (weeklyCandidates_sorted (fuel + 1) weekStart) hwalk hleaves
      exact ih (by omega) (by rwa [timeWithinDay_setUTCDate]) hwalk hleaves
    · rename_i hindex
      rw [numbered_take_limit (not_lt.mp hindex)]

theorem inRangeAlong_week {rest : List Int}
    (hrange : -maxTime ≤ weekStart) (hclock : timeWithinDay weekStart = 0)
    (hnext : ∀ i out, nextWeek i = .returned out → AllDates out →
      InRangeAlong (goesOnWeek args) (bookable args) (args.limit - i) rest)
    (hdows : ∀ dow ∈ dows, 0 ≤ dow) (hindex : index < args.limit)
    (h : week args (timeClip weekStart) nextWeek dows index = .returned out) (hout : AllDates out) :
    InRangeAlong (goesOnWeek args) (bookable args) (args.limit - index)
      (dows.map (dayDate args weekStart) ++ rest) := by
  induction dows generalizing index out with
  | nil => exact hnext index out h hout
  | cons dow dows ih =>
    have hdate := dateOfDay_timeClip args hrange hclock (hdows dow List.mem_cons_self)
    have hdows := fun dow' h => hdows dow' (List.mem_cons_of_mem dow h)
    have hday : inRange (dayDate args weekStart dow) = true := by
      by_contra hday
      rw [timeClip_of_not hday] at hdate
      exact week_none hdate h hout
    rw [timeClip_of_inRange hday] at hdate
    rw [week_some hdate hday hindex] at h
    rw [List.map_cons, List.cons_append, inRangeAlong_cons (by omega)]
    refine ⟨hday, fun hgoes => ?_⟩
    split at h
    · rename_i hbefore
      have hnot : ¬bookable args (dayDate args weekStart dow) = true := fun h =>
        (bookable_iff.mp h).2.1.not_gt hbefore
      rw [if_neg hnot, Nat.sub_zero]
      exact ih hdows hindex h hout
    rename_i hanchor
    rw [if_neg] at h
    swap
    · rw [Bool.not_eq_false]
      exact (goesOnWeek_iff.mp hgoes).resolve_left hanchor
    split at h
    · rename_i hbookable
      obtain ⟨tail, htail, rfl⟩ := Expansion.cons_eq_returned.mp h
      rw [if_pos hbookable, Nat.sub_sub]
      split at htail
      · rename_i hlimit
        exact inRangeAlong_of_le hlimit
      · rename_i hlimit
        exact ih hdows (not_le.mp hlimit) htail (List.forall_mem_of_forall_mem_cons hout)
    · rename_i hbookable
      rw [if_neg hbookable, Nat.sub_zero]
      exact ih hdows hindex h hout

theorem inRangeAlong_weekly (hrange : -maxTime ≤ weekStart) (hclock : timeWithinDay weekStart = 0)
    (h : weekly args fuel (timeClip weekStart) index = .returned out) (hout : AllDates out)
    (fuel' : Nat) : InRangeAlong (goesOnWeek args) (bookable args) (args.limit - index)
      (weeklyCandidates args fuel' weekStart) := by
  induction fuel generalizing weekStart index out fuel' with
  | zero => cases h
  | succ fuel ih =>
    cases fuel' with
    | zero => exact inRangeAlong_nil _ _ _
    | succ fuel' =>
      have hle := le_nextWeek args weekStart
      unfold weekly at h
      split at h
      · rename_i hindex
        rw [moved_timeClip hrange hle] at h
        exact inRangeAlong_week hrange hclock
          (fun i out h hout => ih (by omega) (by rwa [timeWithinDay_setUTCDate]) h hout fuel')
          (fun dow hdow => (byDayDows_bounds hdow).1) hindex h hout
      · rename_i hindex
        exact inRangeAlong_of_le (not_lt.mp hindex)

/-- A week without a start throws, or puts an invalid date out. -/
theorem weekly_none (hindex : index < args.limit)
    (h : weekly args fuel none index = .returned out) : ¬AllDates out := by
  intro hout
  cases fuel with
  | zero => cases h
  | succ fuel =>
    unfold weekly at h
    rw [if_pos hindex] at h
    cases hdows : byDayDows args with
    | nil => exact byDayDows_ne_nil args hdows
    | cons dow dows =>
      rw [hdows] at h
      exact week_none rfl h hout

/-- The ends of the range are midnights, so the two setters leave it together. -/
theorem startOfWeekDate_some (h : inRange d = true) :
    startOfWeekDate (some d) = timeClip (startOfWeek d) := by
  have hset := setUTCDate_add d (-weekDay d)
  rw [← Int.sub_eq_add_neg] at hset
  have hzero : setTimeOfDay (setUTCDate d (getUTCDate d - weekDay d)) 0 = startOfWeek d :=
    Int.add_zero _
  have hsplit := day_timeWithinDay (setUTCDate d (getUTCDate d - weekDay d))
  have hpos := timeWithinDay_nonneg (setUTCDate d (getUTCDate d - weekDay d))
  have hlt := timeWithinDay_lt (setUTCDate d (getUTCDate d - weekDay d))
  have hstart : startOfWeek d = msPerDay * day (setUTCDate d (getUTCDate d - weekDay d)) := rfl
  have hweek : 0 ≤ weekDay d := by
    unfold weekDay
    omega
  rw [inRange_iff] at h
  unfold startOfWeekDate
  rw [moved_some]
  by_cases hmoved : inRange (setUTCDate d (getUTCDate d - weekDay d)) = true
  · rw [timeClip_of_inRange hmoved, moved_some, hzero]
  · have hnot : ¬inRange (startOfWeek d) = true := by
      rw [inRange_iff] at hmoved ⊢
      unfold msPerDay at *
      omega
    rw [timeClip_of_not hmoved, timeClip_of_not hnot, moved_none]

/-! ## Months -/

/-- The second setter changes nothing when the cursor has the time of day of the anchor. -/
theorem candidateDate_some (hclock : timeWithinDay cursor = timeWithinDay args.anchorStart) :
    candidateDate args byMonthDay (some cursor) = timeClip (candidate args byMonthDay cursor) := by
  have hsame : candidate args byMonthDay cursor = setUTCDate cursor byMonthDay := by
    unfold candidate setTimeOfDay
    rw [← hclock, ← timeWithinDay_setUTCDate cursor byMonthDay, day_timeWithinDay]
  unfold candidateDate
  rw [moved_some]
  by_cases hrange : inRange (setUTCDate cursor byMonthDay) = true
  · rw [timeClip_of_inRange hrange]
    rfl
  · rw [hsame, timeClip_of_not hrange]
    rfl

/-- A round of `monthly` at a date. -/
theorem monthly_some (hclock : timeWithinDay cursor = timeWithinDay args.anchorStart) :
    monthly args byMonthDay (fuel + 1) (some cursor) index =
      if index < args.limit then
        let next := timeClip (addUTCMonths cursor args.interval)
        let rest := fun index =>
          if args.passesDate next then monthly args byMonthDay fuel next index else .returned []
        if emitsMonth args byMonthDay cursor then
          (rest (index + 1)).cons
            (args.occurrence (some (candidate args byMonthDay cursor)) index)
        else rest index
      else .returned [] := by
  have hpasses : candidatePasses args byMonthDay (some cursor) =
      (ofMonth args byMonthDay cursor && (inRange (candidate args byMonthDay cursor) &&
        decide (args.anchorStart ≤ candidate args byMonthDay cursor) &&
          args.passes (candidate args byMonthDay cursor))) := by
    unfold candidatePasses
    rw [candidateDate_some hclock]
    by_cases hrange : inRange (candidate args byMonthDay cursor) = true
    · rw [timeClip_of_inRange hrange, hrange]
      simp [ofMonth, Bool.and_assoc]
    · rw [timeClip_of_not hrange, Bool.eq_false_iff.mpr hrange]
      simp
  rw [monthly, hpasses, moved_some]
  split
  swap
  · rfl
  have hemits : emitsMonth args byMonthDay cursor = ((ofMonth args byMonthDay cursor &&
      (inRange (candidate args byMonthDay cursor) &&
        decide (args.anchorStart ≤ candidate args byMonthDay cursor) &&
          args.passes (candidate args byMonthDay cursor))) &&
            !args.isHoliday (candidate args byMonthDay cursor)) := by
    simp only [emitsMonth, bookable, Bool.and_assoc]
  rw [hemits]
  simp only
  split
  · rename_i h
    have hrange : inRange (candidate args byMonthDay cursor) = true := by
      simp only [Bool.and_eq_true] at h
      exact h.2.1.1
    rw [candidateDate_some hclock, timeClip_of_inRange hrange, isHolidayDate_some, h]
    cases args.isHoliday (candidate args byMonthDay cursor) <;> rfl
  · rename_i h
    rw [Bool.eq_false_iff.mpr h]
    rfl

theorem goesOnMonth_of_passes (h : args.passes d = true) : goesOnMonth args d = true := by
  unfold goesOnMonth
  rw [h, Bool.or_true]

theorem monthly_returned (hrange : -maxTime ≤ cursor)
    (hclock : timeWithinDay cursor = timeWithinDay args.anchorStart)
    (hgoes : goesOnMonth args cursor = true)
    (hwalk : InRangeAlong (goesOnMonth args) (emitsMonth args byMonthDay) (args.limit - index)
      (cursors args fuel cursor))
    (hleaves : LeavesWindow args (cursors args fuel cursor).tail) :
    monthly args byMonthDay fuel (timeClip cursor) index = .returned (numbered args index
      (((monthlyCandidates args byMonthDay fuel cursor).filter (bookable args)).take
        (args.limit - index))) := by
  induction fuel generalizing cursor index with
  | zero =>
    obtain ⟨p, hp, _⟩ := hleaves
    cases hp
  | succ fuel ih =>
    have hle := lt_addUTCMonths cursor (show 0 < args.interval from one_le_interval args)
    unfold msPerDay at hle
    rw [cursors, List.tail_cons] at hleaves
    by_cases hindex : index < args.limit
    swap
    · rw [numbered_take_limit (not_lt.mp hindex), monthly, if_neg hindex]
    have hrest : ∀ i, InRangeAlong (goesOnMonth args) (emitsMonth args byMonthDay) (args.limit - i)
          (cursors args fuel (addUTCMonths cursor args.interval)) →
        (if args.passesDate (timeClip (addUTCMonths cursor args.interval)) then
          monthly args byMonthDay fuel (timeClip (addUTCMonths cursor args.interval)) i
          else .returned []) = .returned (numbered args i
            (((if args.passes (addUTCMonths cursor args.interval) then
              monthlyCandidates args byMonthDay fuel (addUTCMonths cursor args.interval)
              else []).filter (bookable args)).take (args.limit - i))) := by
      intro i hwalk
      cases fuel with
      | zero =>
        obtain ⟨p, hp, _⟩ := hleaves
        cases hp
      | succ fuel =>
        by_cases hi : i < args.limit
        · have hnext := ((inRangeAlong_cons (by omega)).mp hwalk).1
          cases hpasses : args.passes (addUTCMonths cursor args.interval) with
          | true =>
            have hgoes := goesOnMonth_of_passes hpasses
            have hih := ih (by omega) (by rwa [timeWithinDay_addUTCMonths]) hgoes hwalk
              (hleaves.tail (.inr hpasses))
            rw [timeClip_of_inRange hnext] at hih ⊢
            rw [passesDate_some, hpasses]
            exact hih
          | false =>
            rw [timeClip_of_inRange hnext, passesDate_some, hpasses]
            simp
        · rw [numbered_take_limit (not_lt.mp hi)]
          split
          · rw [monthly, if_neg hi]
          · rfl
    rw [cursors] at hwalk
    obtain ⟨hcursor, hwalk⟩ := (inRangeAlong_cons (by omega)).mp hwalk
    have hwalk := hwalk hgoes
    rw [timeClip_of_inRange hcursor, monthly_some hclock, if_pos hindex, monthlyCandidates]
    unfold emitsMonth at hwalk ⊢
    simp only
    cases hmonth : ofMonth args byMonthDay cursor with
    | false =>
      rw [hmonth, Bool.false_and, if_neg Bool.false_ne_true, Nat.sub_zero] at hwalk
      rw [Bool.false_and, if_neg Bool.false_ne_true, if_neg Bool.false_ne_true]
      exact hrest index hwalk
    | true =>
      rw [hmonth, Bool.true_and] at hwalk
      rw [Bool.true_and, if_pos rfl]
      split
      · rename_i hbookable
        rw [if_pos hbookable, Nat.sub_sub] at hwalk
        rw [hrest _ hwalk, List.filter_cons_of_pos hbookable, numbered_take_cons hindex]
        rfl
      · rename_i hbookable
        rw [if_neg hbookable, Nat.sub_zero] at hwalk
        rw [hrest _ hwalk, List.filter_cons_of_neg hbookable]

theorem inRangeAlong_monthly (hrange : -maxTime ≤ cursor)
    (hclock : timeWithinDay cursor = timeWithinDay args.anchorStart)
    (hanchor : args.anchorStart ≤ cursor)
    (h : monthly args byMonthDay fuel (timeClip cursor) index = .returned out) (fuel' : Nat) :
    InRangeAlong (goesOnMonth args) (emitsMonth args byMonthDay) (args.limit - index)
      (cursors args fuel' cursor) := by
  induction fuel generalizing cursor index out fuel' with
  | zero => cases h
  | succ fuel ih =>
    cases fuel' with
    | zero => exact inRangeAlong_nil _ _ _
    | succ fuel' =>
      by_cases hindex : index < args.limit
      swap
      · exact inRangeAlong_of_le (not_lt.mp hindex)
      have hle := lt_addUTCMonths cursor (show 0 < args.interval from one_le_interval args)
      unfold msPerDay at hle
      have hrest : ∀ i out, (if args.passesDate (timeClip (addUTCMonths cursor args.interval)) then
            monthly args byMonthDay fuel (timeClip (addUTCMonths cursor args.interval)) i
            else .returned []) = .returned out →
          InRangeAlong (goesOnMonth args) (emitsMonth args byMonthDay) (args.limit - i)
            (cursors args fuel' (addUTCMonths cursor args.interval)) := by
        intro i out h
        split at h
        · exact ih (by omega) (by rwa [timeWithinDay_addUTCMonths]) (by omega) h fuel'
        rename_i hpasses
        cases fuel' with
        | zero => exact inRangeAlong_nil _ _ _
        | succ fuel' =>
          by_cases hi : i < args.limit
          swap
          · exact inRangeAlong_of_le (not_lt.mp hi)
          have hnext : inRange (addUTCMonths cursor args.interval) = true := by
            by_contra hnext
            rw [timeClip_of_not hnext] at hpasses
            exact hpasses passesDate_none
          rw [timeClip_of_inRange hnext, passesDate_some] at hpasses
          rw [cursors, inRangeAlong_cons (by omega)]
          -- The walk ends at a later cursor that does not pass.
          refine ⟨hnext, fun hgoes => absurd hgoes ?_⟩
          have hne : addUTCMonths cursor args.interval ≠ args.anchorStart := by omega
          simp [goesOnMonth, hne, hpasses]
      have hcursor : inRange cursor = true := by
        by_contra hcursor
        rw [timeClip_of_not hcursor, monthly_none _ hindex] at h
        cases h
      rw [timeClip_of_inRange hcursor, monthly_some hclock, if_pos hindex] at h
      rw [cursors, inRangeAlong_cons (by omega)]
      refine ⟨hcursor, fun _ => ?_⟩
      simp only at h
      split at h
      · rename_i hemits
        rw [if_pos hemits, Nat.sub_sub]
        obtain ⟨rest, hreturned, rfl⟩ := Expansion.cons_eq_returned.mp h
        exact hrest _ _ hreturned
      · rename_i hemits
        rw [if_neg hemits, Nat.sub_zero]
        exact hrest _ _ h

end

/-! ## The expansion -/

section

variable {args : ExpandArgs} {out : List Occurrence}

/-- An expansion that stays in the range of dates returns its dates up to the limit. -/
theorem returns_dates (h : StaysInRange args) :
    Returns args (numbered args 0 ((dates args args.rounds).take args.limit)) := by
  obtain ⟨hanchor, hweek, hwalk⟩ := h
  by_cases hlimit : 0 < args.limit
  swap
  · refine ⟨1, ?_⟩
    have hzero : args.limit = 0 := by omega
    rw [hzero, List.take_zero]
    unfold expand
    cases args.rule.frequency with
    | daily => simp [daily, hzero]
    | weekly => simp [weekly, hzero]
    | monthly => simp [monthly, hzero]
  have hanchor := hanchor hlimit
  have hrange := (inRange_iff.mp hanchor).1
  have hwalk := hwalk args.rounds
  refine ⟨args.rounds, ?_⟩
  unfold dates candidates
  unfold goesOn emits positions at hwalk
  cases hrule : args.rule.frequency with
  | daily =>
    rw [hrule] at hwalk
    rw [expand_daily _ _ hrule]
    exact daily_returned (le_refl _) hrange hwalk (leavesWindow_daily args)
  | weekly =>
    rw [hrule] at hwalk
    have hstart := hweek hrule hlimit
    rw [expand_weekly _ _ hrule, timeClip_of_inRange hanchor, startOfWeekDate_some hanchor]
    exact weekly_returned (inRange_iff.mp hstart).1 (timeWithinDay_startOfWeek _) hwalk
      (leavesWindow_weekly args)
  | monthly =>
    rw [hrule] at hwalk
    have hgoes : goesOnMonth args args.anchorStart = true := by simp [goesOnMonth]
    rw [expand_monthly _ _ hrule]
    exact monthly_returned hrange rfl hgoes hwalk (leavesWindow_monthly args)

theorem anchor_inRange (h : Returns args out) (hout : AllDates out) (hlimit : 0 < args.limit) :
    inRange args.anchorStart = true := by
  obtain ⟨fuel, h⟩ := h
  by_contra hanchor
  cases hrule : args.rule.frequency with
  | daily =>
    rw [expand_daily _ _ hrule, timeClip_of_not hanchor] at h
    exact daily_none hlimit h hout
  | weekly =>
    rw [expand_weekly _ _ hrule, timeClip_of_not hanchor] at h
    exact weekly_none hlimit h hout
  | monthly =>
    rw [expand_monthly _ _ hrule, timeClip_of_not hanchor, monthly_none fuel hlimit] at h
    cases h

theorem startOfWeek_inRange (h : Returns args out) (hout : AllDates out)
    (hrule : args.rule.frequency = .weekly) (hlimit : 0 < args.limit) :
    inRange (startOfWeek args.anchorStart) = true := by
  have hanchor := anchor_inRange h hout hlimit
  obtain ⟨fuel, h⟩ := h
  by_contra hstart
  rw [expand_weekly _ _ hrule, timeClip_of_inRange hanchor, startOfWeekDate_some hanchor,
    timeClip_of_not hstart] at h
  exact weekly_none hlimit h hout

/-- An expansion that returns no invalid date stays in the range of dates. -/
theorem staysInRange_of_returns (h : Returns args out) (hout : AllDates out) :
    StaysInRange args := by
  refine ⟨anchor_inRange h hout, startOfWeek_inRange h hout, fun fuel' => ?_⟩
  by_cases hlimit : 0 < args.limit
  swap
  · exact inRangeAlong_of_le (Nat.eq_zero_of_not_pos hlimit).le
  have hanchor := anchor_inRange h hout hlimit
  have hrange := (inRange_iff.mp hanchor).1
  unfold goesOn emits positions
  cases hrule : args.rule.frequency with
  | daily =>
    obtain ⟨fuel, h⟩ := h
    rw [expand_daily _ _ hrule] at h
    exact inRangeAlong_daily (le_refl _) hrange h hout fuel'
  | weekly =>
    have hstart := startOfWeek_inRange h hout hrule hlimit
    obtain ⟨fuel, h⟩ := h
    rw [expand_weekly _ _ hrule, timeClip_of_inRange hanchor, startOfWeekDate_some hanchor] at h
    exact inRangeAlong_weekly (inRange_iff.mp hstart).1 (timeWithinDay_startOfWeek _) h hout fuel'
  | monthly =>
    obtain ⟨fuel, h⟩ := h
    rw [expand_monthly _ _ hrule] at h
    exact inRangeAlong_monthly hrange rfl (le_refl _) h fuel'

end

end Prequest.Recurrence
