import Prequest.Lib.OpenTime
import Prequest.Sla.BusinessMinutes

/-!
# Open minutes

The minutes of a time line that a calendar is open in. On whole minutes the two
loops count these minutes, up to their caps.

* `openMinutes_addLoop`: the first loop moves by as many of them as it has taken.
* `businessMinutes_add_iff`: when the minutes of two stretches add up.
-/

namespace Prequest.Sla

open Prequest.Lib Prequest.Lib.Calendar

/-- The minute with this number is open. Without a calendar every minute is. -/
def isOpen (calendar : Option BusinessHoursCalendar) (k : Int) : Prop :=
  match calendar with
  | none => True
  | some calendar =>
      match windowFor calendar (msPerMinute * k) with
      | none => False
      | some (winStart, winEnd) => winStart ≤ msPerMinute * k ∧ msPerMinute * k < winEnd

instance (calendar : Option BusinessHoursCalendar) : DecidablePred (isOpen calendar) := fun k => by
  unfold isOpen
  split
  · infer_instance
  · split <;> infer_instance

def openMinutes (calendar : Option BusinessHoursCalendar) (start finish : Int) : Nat :=
  counted (isOpen calendar) (start / msPerMinute) (finish / msPerMinute)

section

variable {calendar : BusinessHoursCalendar} {t u v finish : Int} {fuel remaining : Nat}

theorem openMinutes_of_le {calendar : Option BusinessHoursCalendar} (h : finish ≤ t) :
    openMinutes calendar t finish = 0 := by
  refine counted_of_le ?_
  unfold msPerMinute
  omega

theorem openMinutes_add {calendar : Option BusinessHoursCalendar} (htu : t ≤ u) (huv : u ≤ v) :
    openMinutes calendar t u + openMinutes calendar u v = openMinutes calendar t v := by
  refine counted_add ?_ ?_
  · unfold msPerMinute
    omega
  · unfold msPerMinute
    omega

theorem clock_mono {d d' : Int} (h : d ≤ d') :
    calendar.timeZone.clock d 0 ≤ calendar.timeZone.clock d' 0 := by
  have hday := calendar.timeZone.dayOf_clock d' 0 (Int.le_refl 0) (by decide)
  exact (calendar.timeZone.clock_zero_le d _).mpr (by omega)

theorem startOfNextDay_aligned (calendar : BusinessHoursCalendar) (t : Int) :
    msPerMinute ∣ startOfNextDay calendar t := calendar.timeZone.aligned _ _

theorem minutesTo_eq (ht : msPerMinute ∣ t) (hfinish : msPerMinute ∣ finish)
    (hday : finish ≤ startOfNextDay calendar t) :
    minutesTo calendar t finish = openMinutes (some calendar) t finish := by
  have hsame : ∀ k, t / msPerMinute ≤ k → k < finish / msPerMinute →
      windowFor calendar (msPerMinute * k) = windowFor calendar t := by
    intro k hk hlt
    have hle : t ≤ msPerMinute * k := by
      unfold msPerMinute at ht hk ⊢
      omega
    have hnext : msPerMinute * k < startOfNextDay calendar t := by
      unfold msPerMinute at hfinish hlt ⊢
      omega
    exact windowFor_eq (Int.le_antisymm (dayOf_lt hnext) (dayOf_mono hle))
  unfold minutesTo openMinutes
  cases h : windowFor calendar t with
  | none =>
    refine (counted_none fun k hk hlt hopen => ?_).symm
    unfold isOpen at hopen
    dsimp only at hopen
    rw [hsame k hk hlt, h] at hopen
    exact hopen
  | some w =>
    obtain ⟨s, e⟩ := w
    obtain ⟨_, _, _, _, hs, he⟩ := windowFor_spec h
    have hcounted := @counted_eq (isOpen (some calendar)) _ (t / msPerMinute)
      (finish / msPerMinute) (s / msPerMinute) (e / msPerMinute) ?_
    · rw [hcounted]
      dsimp only
      unfold msPerMinute at ht hfinish hs he ⊢
      omega
    · intro k hk hlt
      unfold isOpen
      dsimp only
      rw [hsame k hk hlt, h]
      dsimp only
      unfold msPerMinute at hs he ⊢
      omega

/-- The days that so many rounds of the second loop reach end here. -/
def dayAfter (calendar : BusinessHoursCalendar) (t : Int) (rounds : Nat) : Int :=
  calendar.timeZone.clock (calendar.timeZone.dayOf t + rounds) 0

theorem dayAfter_succ (t : Int) :
    dayAfter calendar (startOfNextDay calendar t) fuel = dayAfter calendar t (fuel + 1) := by
  unfold dayAfter
  rw [dayOf_startOfNextDay, Int.add_assoc, Int.add_comm 1 (fuel : Int), Int.natCast_succ]

theorem startOfNextDay_le_dayAfter (t : Int) :
    startOfNextDay calendar t ≤ dayAfter calendar t (fuel + 1) :=
  clock_mono (by omega)

theorem betweenLoop_eq {total : Nat} (ht : msPerMinute ∣ t) (hfinish : msPerMinute ∣ finish) :
    betweenLoop calendar finish fuel t total =
      total + openMinutes (some calendar) t (min finish (dayAfter calendar t fuel)) := by
  induction fuel generalizing t total with
  | zero =>
    have hle : dayAfter calendar t 0 ≤ t :=
      (calendar.timeZone.clock_zero_le _ t).mpr (by simp)
    rw [openMinutes_of_le (by omega)]
    rfl
  | succ fuel ih =>
    rcases Int.lt_or_le t finish with hlt | hle
    · have hnext := lt_startOfNextDay calendar t
      have hreach := @startOfNextDay_le_dayAfter calendar fuel t
      rw [betweenLoop_succ hlt, ih (startOfNextDay_aligned calendar t), dayAfter_succ]
      rcases Int.le_total finish (startOfNextDay calendar t) with hlast | hmore
      · rw [Int.min_eq_left (by omega), openMinutes_of_le hlast,
          minutesTo_eq ht hfinish hlast, Nat.add_zero]
      · have hfree : free calendar t = openMinutes (some calendar) t (startOfNextDay calendar t) :=
          minutesTo_eq ht (startOfNextDay_aligned calendar t) (Int.le_refl _)
        rw [minutesTo_of_le hmore, hfree, Nat.add_assoc,
          openMinutes_add (Int.le_of_lt hnext) (by omega)]
    · rw [betweenLoop_of_le hle, openMinutes_of_le (by omega), Nat.add_zero]

theorem addLoop_aligned (ht : msPerMinute ∣ t) :
    msPerMinute ∣ (addLoop calendar fuel t remaining).1 := by
  induction fuel generalizing t remaining with
  | zero => exact ht
  | succ fuel ih =>
    by_cases hremaining : remaining = 0
    · rw [hremaining, addLoop_zero]
      exact ht
    · by_cases hfree : free calendar t = 0
      · rw [addLoop_closed hfree hremaining]
        exact ih (startOfNextDay_aligned calendar t)
      · rw [addLoop_open hfree hremaining]
        refine ih (Int.dvd_add ?_ (Int.dvd_mul_right _ _))
        unfold opening
        split
        · exact ht
        · rename_i h
          obtain ⟨_, _, _, _, hs, _⟩ := windowFor_spec h
          unfold msPerMinute at ht hs ⊢
          omega

theorem openMinutes_addLoop (ht : msPerMinute ∣ t) :
    openMinutes (some calendar) t (addLoop calendar fuel t remaining).1 =
      remaining - (addLoop calendar fuel t remaining).2 := by
  have hle := @le_addLoop calendar t fuel remaining
  have hend := @addLoop_aligned calendar t fuel remaining ht
  generalize hresult : addLoop calendar fuel t remaining = result at hle hend ⊢
  have hdays : calendar.timeZone.dayOf t ≤ calendar.timeZone.dayOf result.1 := dayOf_mono hle
  -- Rounds enough for the second loop to reach the end.
  obtain ⟨rounds, hrounds⟩ : ∃ rounds : Nat,
      (rounds : Int) = calendar.timeZone.dayOf result.1 - calendar.timeZone.dayOf t + 1 + fuel :=
    ⟨(calendar.timeZone.dayOf result.1 - calendar.timeZone.dayOf t + 1 + fuel).toNat, by omega⟩
  have hcount := @betweenLoop_addLoop calendar t fuel remaining 0 rounds (by omega)
  rw [hresult, betweenLoop_eq ht hend, Nat.zero_add, Nat.zero_add] at hcount
  have hreach : result.1 < dayAfter calendar t rounds := by
    have hlast := calendar.timeZone.clock_zero_le (calendar.timeZone.dayOf t + rounds) result.1
    unfold dayAfter
    omega
  rwa [Int.min_eq_left (Int.le_of_lt hreach)] at hcount

end

end Prequest.Sla
