import Prequest.Sla.BusinessHours

/-!
# Sums and differences of business minutes

Both loops go over days. The first takes two rounds for a day of which it uses
every minute, the second one round for any day. The cap of 400 rounds is hit by
the first after fewer days than by the second, so what it returns can be
counted.

* `between_addBusinessMinutes`: the difference is the sum exactly then.
-/

namespace Prequest.Sla

open Prequest.Lib.Calendar

variable (calendar : BusinessHoursCalendar)

/-- Where the hours of the day of `t` go on from `t`. -/
def opening (t : Int) : Int :=
  match windowFor calendar t with
  | none => t
  | some (winStart, _) => max t winStart

/-- The whole minutes that are open from `t` to `finish`, on the day of `t`. -/
def minutesTo (t finish : Int) : Nat :=
  match windowFor calendar t with
  | none => 0
  | some (winStart, winEnd) => ((min winEnd finish - max t winStart) / msPerMinute).toNat

/-- The whole minutes that are open from `t` to the end of its day. -/
def free (t : Int) : Nat := minutesTo calendar t (startOfNextDay calendar t)

variable {calendar} {t u finish : Int} {fuel remaining total : Nat}

variable {s : Int} {e : Int}

theorem windowEnd_lt (h : windowFor calendar t = some (s, e)) : e < startOfNextDay calendar t := by
  obtain ⟨_, _, hday, _⟩ := windowFor_spec h
  have hnext := lt_startOfNextDay calendar e
  rwa [startOfNextDay_eq hday] at hnext

theorem free_none (h : windowFor calendar t = none) : free calendar t = 0 := by
  unfold free minutesTo
  rw [h]

theorem free_some (h : windowFor calendar t = some (s, e)) :
    free calendar t = ((e - max t s) / msPerMinute).toNat := by
  have hend := windowEnd_lt h
  unfold free minutesTo
  rw [h]
  dsimp only
  rw [Int.min_eq_left (by omega)]

theorem opening_some (h : windowFor calendar t = some (s, e)) : opening calendar t = max t s := by
  unfold opening
  rw [h]

theorem le_opening (calendar : BusinessHoursCalendar) (t : Int) : t ≤ opening calendar t := by
  unfold opening
  split <;> omega

theorem dayOf_max (hs : calendar.timeZone.dayOf s = calendar.timeZone.dayOf t) :
    calendar.timeZone.dayOf (max t s) = calendar.timeZone.dayOf t := by
  rcases Int.le_total t s with h | h
  · rw [Int.max_eq_right h, hs]
  · rw [Int.max_eq_left h]

variable {k : Nat}

theorem opening_add_le (h : windowFor calendar t = some (s, e)) (hk : k ≤ free calendar t) :
    max t s + msPerMinute * k ≤ max e (max t s) := by
  rw [free_some h] at hk
  unfold msPerMinute at hk ⊢
  omega

theorem dayOf_opening_add (hk : k ≤ free calendar t) :
    calendar.timeZone.dayOf (opening calendar t + msPerMinute * k) = calendar.timeZone.dayOf t := by
  cases h : windowFor calendar t with
  | none =>
    rw [free_none h, Nat.le_zero] at hk
    unfold opening
    rw [h, hk]
    simp
  | some w =>
    obtain ⟨s, e⟩ := w
    obtain ⟨_, hs, he, _⟩ := windowFor_spec h
    have hlast := @dayOf_mono calendar _ _ (opening_add_le h hk)
    have hfirst : calendar.timeZone.dayOf t ≤
        calendar.timeZone.dayOf (max t s + msPerMinute * k) := by
      refine dayOf_mono ?_
      unfold msPerMinute
      omega
    rw [opening_some h]
    rcases Int.le_total e (max t s) with hle | hle
    · rw [Int.max_eq_right hle, dayOf_max hs] at hlast
      omega
    · rw [Int.max_eq_left hle, he] at hlast
      omega

/-! ## A day of the first loop -/

@[simp] theorem addLoop_zero : addLoop calendar fuel t 0 = (t, 0) := by
  cases fuel <;> simp [addLoop]

theorem addLoop_closed (hfree : free calendar t = 0) (hremaining : remaining ≠ 0) :
    addLoop calendar (fuel + 1) t remaining =
      addLoop calendar fuel (startOfNextDay calendar t) remaining := by
  rw [addLoop, if_neg hremaining]
  cases h : windowFor calendar t with
  | none => rfl
  | some w =>
    obtain ⟨s, e⟩ := w
    obtain ⟨hlt, hs, he, _⟩ := windowFor_spec h
    rw [free_some h] at hfree
    dsimp only
    rw [startOfNextDay_eq (dayOf_max hs), if_pos (show (e - max t s) / msPerMinute ≤ 0 by omega),
      ite_self]

theorem addLoop_open (hpos : free calendar t ≠ 0) (hremaining : remaining ≠ 0) :
    addLoop calendar (fuel + 1) t remaining =
      addLoop calendar fuel
        (opening calendar t + msPerMinute * (min remaining (free calendar t) : Nat))
        (remaining - min remaining (free calendar t)) := by
  rw [addLoop, if_neg hremaining]
  cases h : windowFor calendar t with
  | none => exact absurd (free_none h) hpos
  | some w =>
    obtain ⟨s, e⟩ := w
    rw [free_some h] at hpos ⊢
    rw [opening_some h]
    have hopen : ¬e ≤ max t s := by
      unfold msPerMinute at hpos
      omega
    dsimp only
    rw [if_neg hopen, if_neg (by omega)]

theorem addLoop_enough (hle : remaining ≤ free calendar t) (hremaining : remaining ≠ 0) :
    addLoop calendar (fuel + 1) t remaining =
      (opening calendar t + msPerMinute * remaining, 0) := by
  rw [addLoop_open (by omega) hremaining, Nat.min_eq_left hle, Nat.sub_self, addLoop_zero]

theorem addLoop_all (hpos : free calendar t ≠ 0) (hlt : free calendar t < remaining) :
    addLoop calendar (fuel + 1) t remaining =
      addLoop calendar fuel (opening calendar t + msPerMinute * free calendar t)
        (remaining - free calendar t) := by
  rw [addLoop_open hpos (by omega), Nat.min_eq_right (Nat.le_of_lt hlt)]

theorem free_opening_add : free calendar (opening calendar t + msPerMinute * free calendar t) = 0 := by
  have hday := dayOf_opening_add (Nat.le_refl (free calendar t))
  cases h : windowFor calendar t with
  | none =>
    rw [free_none (by rw [windowFor_eq hday, h])]
  | some w =>
    obtain ⟨s, e⟩ := w
    rw [free_some (by rw [windowFor_eq hday, h]), opening_some h, free_some h]
    unfold msPerMinute
    omega

theorem addLoop_next (hpos : free calendar t ≠ 0) (hlt : free calendar t < remaining) :
    addLoop calendar (fuel + 2) t remaining =
      addLoop calendar fuel (startOfNextDay calendar t) (remaining - free calendar t) := by
  rw [addLoop_all hpos hlt, addLoop_closed free_opening_add (by omega),
    startOfNextDay_eq (dayOf_opening_add (Nat.le_refl _))]

theorem le_addLoop : t ≤ (addLoop calendar fuel t remaining).1 := by
  induction fuel generalizing t remaining with
  | zero => exact Int.le_refl t
  | succ fuel ih =>
    rcases Nat.eq_zero_or_pos remaining with rfl | hremaining
    · rw [addLoop_zero]
    · by_cases hfree : free calendar t = 0
      · rw [addLoop_closed hfree (by omega)]
        exact Int.le_trans (Int.le_of_lt (lt_startOfNextDay calendar t)) ih
      · rw [addLoop_open hfree (by omega)]
        refine Int.le_trans ?_ ih
        have hopening := le_opening calendar t
        unfold msPerMinute
        omega

/-! ## A day of the second loop -/

theorem betweenLoop_of_le (h : finish ≤ t) : betweenLoop calendar finish fuel t total = total := by
  cases fuel with
  | zero => rfl
  | succ fuel => rw [betweenLoop, if_pos h]

theorem betweenLoop_succ (h : t < finish) :
    betweenLoop calendar finish (fuel + 1) t total =
      betweenLoop calendar finish fuel (startOfNextDay calendar t)
        (total + minutesTo calendar t finish) := by
  rw [betweenLoop, if_neg (by omega)]
  unfold minutesTo
  cases hwindow : windowFor calendar t with
  | none => rfl
  | some w =>
    obtain ⟨s, e⟩ := w
    obtain ⟨hlt, hs, he, _⟩ := windowFor_spec hwindow
    have hend := windowEnd_lt hwindow
    dsimp only
    by_cases hopen : e ≤ max t s
    · have hnone : ((min e finish - max t s) / msPerMinute).toNat = 0 := by
        unfold msPerMinute
        omega
      rw [if_pos hopen, startOfNextDay_eq (dayOf_max hs), hnone, Nat.add_zero]
    · rw [if_neg hopen]
      by_cases hfinish : e < finish
      · rw [if_pos hfinish, if_pos hfinish, startOfNextDay_eq he,
          Int.min_eq_left (Int.le_of_lt hfinish)]
      · rw [if_neg hfinish, if_neg hfinish, betweenLoop_of_le (Int.le_refl _),
          betweenLoop_of_le (by omega), Int.min_eq_right (by omega)]

/-! ## The difference of a sum -/

theorem minutesTo_of_le (h : startOfNextDay calendar t ≤ finish) :
    minutesTo calendar t finish = free calendar t := by
  unfold free minutesTo
  cases hwindow : windowFor calendar t with
  | none => rfl
  | some w =>
    obtain ⟨s, e⟩ := w
    have hend := windowEnd_lt hwindow
    dsimp only
    rw [Int.min_eq_left (by omega), Int.min_eq_left (by omega)]

theorem minutesTo_opening_add (hk : k ≤ free calendar t) :
    minutesTo calendar t (opening calendar t + msPerMinute * k) = k := by
  unfold minutesTo
  cases h : windowFor calendar t with
  | none =>
    rw [free_none h] at hk
    exact (Nat.le_zero.mp hk).symm
  | some w =>
    obtain ⟨s, e⟩ := w
    have hle := opening_add_le h hk
    rw [free_some h] at hk
    rw [opening_some h]
    dsimp only
    unfold msPerMinute at hk hle ⊢
    omega

theorem opening_add_lt (hk : k ≤ free calendar t) :
    opening calendar t + msPerMinute * k < startOfNextDay calendar t := by
  have hlt := lt_startOfNextDay calendar (opening calendar t + msPerMinute * k)
  rwa [startOfNextDay_eq (dayOf_opening_add hk)] at hlt

theorem lt_opening_add (hk : k ≠ 0) : t < opening calendar t + msPerMinute * k := by
  have hle := le_opening calendar t
  unfold msPerMinute
  omega

theorem remaining_le : (addLoop calendar fuel t remaining).2 ≤ remaining := by
  induction fuel generalizing t remaining with
  | zero => exact Nat.le_refl remaining
  | succ fuel ih =>
    rcases Nat.eq_zero_or_pos remaining with rfl | hremaining
    · exact Nat.le_of_eq (congrArg Prod.snd addLoop_zero)
    · by_cases hfree : free calendar t = 0
      · rw [addLoop_closed hfree (by omega)]
        exact ih
      · rw [addLoop_open hfree (by omega)]
        exact Nat.le_trans ih (Nat.sub_le _ _)

theorem betweenLoop_addLoop {fuel' : Nat} (hfuel : fuel ≤ fuel') :
    betweenLoop calendar (addLoop calendar fuel t remaining).1 fuel' t total =
      total + (remaining - (addLoop calendar fuel t remaining).2) := by
  induction fuel using Nat.strongRecOn generalizing t remaining fuel' total with
  | ind fuel ih =>
    rcases Nat.eq_zero_or_pos remaining with rfl | hremaining
    · rw [addLoop_zero, betweenLoop_of_le (Int.le_refl t)]
      rfl
    · cases fuel with
      | zero =>
        rw [show addLoop calendar 0 t remaining = (t, remaining) from rfl,
          betweenLoop_of_le (Int.le_refl t), Nat.sub_self, Nat.add_zero]
      | succ fuel =>
        obtain ⟨fuel', rfl⟩ := Nat.exists_eq_succ_of_ne_zero (show fuel' ≠ 0 by omega)
        have hnext := lt_startOfNextDay calendar t
        by_cases hfree : free calendar t = 0
        · rw [addLoop_closed hfree (by omega)]
          have hcursor := @le_addLoop calendar (startOfNextDay calendar t) fuel remaining
          rw [betweenLoop_succ (by omega), minutesTo_of_le hcursor, hfree,
            ih fuel (by omega) (by omega), Nat.add_zero]
        · by_cases hle : remaining ≤ free calendar t
          · rw [addLoop_enough hle (by omega), betweenLoop_succ (lt_opening_add (by omega)),
              minutesTo_opening_add hle,
              betweenLoop_of_le (Int.le_of_lt (opening_add_lt hle)), Nat.sub_zero]
          · cases fuel with
            | zero =>
              rw [addLoop_all hfree (by omega)]
              show betweenLoop calendar (opening calendar t + msPerMinute * free calendar t)
                (fuel' + 1) t total = total + (remaining - (remaining - free calendar t))
              rw [betweenLoop_succ (lt_opening_add hfree),
                minutesTo_opening_add (Nat.le_refl _),
                betweenLoop_of_le (Int.le_of_lt (opening_add_lt (Nat.le_refl _)))]
              omega
            | succ fuel =>
              rw [addLoop_next hfree (by omega)]
              have hcursor := @le_addLoop calendar (startOfNextDay calendar t) fuel
                (remaining - free calendar t)
              have hrest := @remaining_le calendar (startOfNextDay calendar t) fuel
                (remaining - free calendar t)
              rw [betweenLoop_succ (by omega), minutesTo_of_le hcursor,
                ih fuel (by omega) (by omega)]
              omega

/-! ## The cap -/

/-- The whole minutes that are open from `t` to the end of the last of `n` days. -/
def freeDays (calendar : BusinessHoursCalendar) : Nat → Int → Nat
  | 0, _ => 0
  | n + 1, t => free calendar t + freeDays calendar n (startOfNextDay calendar t)

/-- How many of `n` days from `t` on have a minute open. -/
def openDays (calendar : BusinessHoursCalendar) : Nat → Int → Nat
  | 0, _ => 0
  | n + 1, t =>
      (if free calendar t = 0 then 0 else 1) + openDays calendar n (startOfNextDay calendar t)

/-- The minutes fit into the days that so many rounds reach: a day passed takes one round, or two
when it has minutes. -/
def Fits (calendar : BusinessHoursCalendar) (rounds : Nat) (t : Int) (minutes : Nat) : Prop :=
  minutes = 0 ∨ ∃ n, minutes ≤ freeDays calendar (n + 1) t ∧ n + openDays calendar n t < rounds

def FitsCap (calendar : BusinessHoursCalendar) (start : Int) (minutes : Nat) : Prop :=
  Fits calendar maxIterations start minutes

theorem fits_closed (hfree : free calendar t = 0) (hremaining : remaining ≠ 0) :
    Fits calendar (fuel + 1) t remaining ↔
      Fits calendar fuel (startOfNextDay calendar t) remaining := by
  refine or_congr_right ⟨fun ⟨n, hminutes, hrounds⟩ => ?_, fun ⟨n, hminutes, hrounds⟩ => ?_⟩
  · rw [freeDays, hfree] at hminutes
    cases n with
    | zero =>
      rw [freeDays] at hminutes
      omega
    | succ n =>
      rw [openDays, if_pos hfree] at hrounds
      exact ⟨n, by omega, by omega⟩
  · refine ⟨n + 1, ?_, ?_⟩
    · rw [freeDays]
      omega
    · rw [openDays, if_pos hfree]
      omega

theorem fits_enough (hle : remaining ≤ free calendar t) : Fits calendar (fuel + 1) t remaining := by
  refine .inr ⟨0, ?_, ?_⟩
  · rw [freeDays]
    omega
  · rw [openDays]
    omega

theorem not_fits_one (hlt : free calendar t < remaining) : ¬Fits calendar 1 t remaining := by
  rintro (h | ⟨n, hminutes, hrounds⟩)
  · omega
  · obtain rfl : n = 0 := by omega
    rw [freeDays, freeDays] at hminutes
    omega

theorem fits_next (hfree : free calendar t ≠ 0) (hlt : free calendar t < remaining) :
    Fits calendar (fuel + 2) t remaining ↔
      Fits calendar fuel (startOfNextDay calendar t) (remaining - free calendar t) := by
  constructor
  · rintro (h | ⟨n, hminutes, hrounds⟩)
    · omega
    · rw [freeDays] at hminutes
      cases n with
      | zero =>
        rw [freeDays] at hminutes
        omega
      | succ n =>
        rw [openDays, if_neg hfree] at hrounds
        exact .inr ⟨n, by omega, by omega⟩
  · rintro (h | ⟨n, hminutes, hrounds⟩)
    · omega
    · refine .inr ⟨n + 1, ?_, ?_⟩
      · rw [freeDays]
        omega
      · rw [openDays, if_neg hfree]
        omega

theorem addLoop_done_iff :
    (addLoop calendar fuel t remaining).2 = 0 ↔ Fits calendar fuel t remaining := by
  induction fuel using Nat.strongRecOn generalizing t remaining with
  | ind fuel ih =>
    rcases Nat.eq_zero_or_pos remaining with rfl | hremaining
    · rw [addLoop_zero]
      exact iff_of_true rfl (.inl rfl)
    · cases fuel with
      | zero =>
        refine iff_of_false (Nat.ne_of_gt hremaining) ?_
        rintro (h | ⟨n, _, h⟩)
        · omega
        · omega
      | succ fuel =>
        by_cases hfree : free calendar t = 0
        · rw [addLoop_closed hfree (by omega), fits_closed hfree (by omega)]
          exact ih fuel (by omega)
        · by_cases hle : remaining ≤ free calendar t
          · rw [addLoop_enough hle (by omega)]
            exact iff_of_true rfl (fits_enough hle)
          · cases fuel with
            | zero =>
              rw [addLoop_all hfree (by omega)]
              refine iff_of_false ?_ (not_fits_one (by omega))
              show remaining - free calendar t ≠ 0
              omega
            | succ fuel =>
              rw [addLoop_next hfree (by omega), fits_next hfree (by omega)]
              exact ih fuel (by omega)

/-- All minutes taken, the cursor stands after the first minute of a window and not after its
end. -/
theorem addLoop_inWindow (hdone : (addLoop calendar fuel t remaining).2 = 0)
    (hremaining : remaining ≠ 0) :
    ∃ s e, windowFor calendar (addLoop calendar fuel t remaining).1 = some (s, e) ∧
      s + msPerMinute ≤ (addLoop calendar fuel t remaining).1 ∧
      (addLoop calendar fuel t remaining).1 ≤ e := by
  induction fuel using Nat.strongRecOn generalizing t remaining with
  | ind fuel ih =>
    cases fuel with
    | zero => exact absurd hdone hremaining
    | succ fuel =>
      by_cases hfree : free calendar t = 0
      · rw [addLoop_closed hfree hremaining] at hdone ⊢
        exact ih fuel (by omega) hdone hremaining
      · by_cases hle : remaining ≤ free calendar t
        · rw [addLoop_enough hle hremaining, windowFor_eq (dayOf_opening_add hle)]
          cases h : windowFor calendar t with
          | none => exact absurd (free_none h) hfree
          | some w =>
            obtain ⟨s, e⟩ := w
            have hend := opening_add_le h hle
            rw [free_some h] at hfree
            refine ⟨s, e, rfl, ?_, ?_⟩
            · rw [opening_some h]
              unfold msPerMinute at hend ⊢
              omega
            · rw [opening_some h]
              unfold msPerMinute at hend hfree ⊢
              omega
        · cases fuel with
          | zero =>
            rw [addLoop_all hfree (by omega)] at hdone
            have hrest : remaining - free calendar t = 0 := hdone
            omega
          | succ fuel =>
            rw [addLoop_next hfree (by omega)] at hdone ⊢
            exact ih fuel (by omega) hdone (by omega)

/-! ## The law -/

/-- A sum is as many business minutes after the start, within or at the end of a window. -/
structure SumLaw (calendar : BusinessHoursCalendar) (start : Int) (minutes : Nat) : Prop where
  difference : businessMinutesBetween (some calendar) start
    (addBusinessMinutes (some calendar) start minutes) = minutes
  inWindow : 0 < minutes → ∃ s e,
    windowFor calendar (addBusinessMinutes (some calendar) start minutes) = some (s, e) ∧
      isHoliday calendar (calendar.timeZone.dayOf
        (addBusinessMinutes (some calendar) start minutes)) = false ∧
      s < addBusinessMinutes (some calendar) start minutes ∧
      addBusinessMinutes (some calendar) start minutes ≤ e

section

variable (calendar : BusinessHoursCalendar)

theorem addBusinessMinutes_some (start : Int) (minutes : Nat) :
    addBusinessMinutes (some calendar) start minutes =
      (addLoop calendar maxIterations start minutes).1 := by
  by_cases hminutes : minutes = 0
  · rw [hminutes, addLoop_zero]
    rfl
  · exact if_neg hminutes

theorem businessMinutesBetween_some (start finish : Int) :
    businessMinutesBetween (some calendar) start finish =
      betweenLoop calendar finish maxIterations start 0 := by
  by_cases hle : finish ≤ start
  · rw [betweenLoop_of_le hle]
    exact if_pos hle
  · exact if_neg hle

theorem between_addBusinessMinutes (start : Int) (minutes : Nat) :
    businessMinutesBetween (some calendar) start
        (addBusinessMinutes (some calendar) start minutes) =
      minutes - (addLoop calendar maxIterations start minutes).2 := by
  rw [businessMinutesBetween_some, addBusinessMinutes_some, betweenLoop_addLoop (Nat.le_refl _),
    Nat.zero_add]

end

/-- From 08:00 to 17:00, in UTC. -/
def weekdays : BusinessHoursCalendar where
  timeZone := .fixedOffset 0
  workingHours
    | .saturday | .sunday => none
    | _ => some ⟨⟨8, 0⟩, ⟨17, 0⟩⟩
  holidays := []

end Prequest.Sla
