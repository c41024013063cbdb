import Mathlib.Order.Interval.Finset.Basic
import Mathlib.Data.Int.Interval
import Mathlib.Data.Finset.Card

/-!
# Time that counts

Some units of a time line count and others do not: the open minutes of a
calendar. A deadline is moved by as many units that count as a pause took.

* `counted_add`: they add up over neighbouring intervals.
* `shift_conserves`: what is left to a deadline is the same after a pause.
* `shift_iff`: and only then, when the deadline may have been moved too little.
-/

namespace Prequest.Lib

variable (p : Int → Prop) [DecidablePred p]

/-- The units from `a` to before `b` that count. -/
def counted (a b : Int) : Nat := ((@Finset.Ico Int _ Int.instLocallyFiniteOrder a b).filter p).card

variable {p} {a b c d : Int}

theorem counted_of_le (h : b ≤ a) : counted p a b = 0 := by
  unfold counted
  rw [Finset.Ico_eq_empty (not_lt.mpr h)]
  rfl

theorem counted_add (hab : a ≤ b) (hbc : b ≤ c) :
    counted p a b + counted p b c = counted p a c := by
  unfold counted
  rw [← Finset.Ico_union_Ico_eq_Ico hab hbc, Finset.filter_union]
  refine (Finset.card_union_of_disjoint (Finset.disjoint_filter_filter ?_)).symm
  exact Finset.Ico_disjoint_Ico_consecutive a b c

theorem counted_eq {s e : Int} (h : ∀ t, a ≤ t → t < b → (p t ↔ s ≤ t ∧ t < e)) :
    counted p a b = (min b e - max a s).toNat := by
  unfold counted
  have hfilter : (Finset.Ico a b).filter p = Finset.Ico (max a s) (min b e) := by
    ext t
    rw [Finset.mem_filter, Finset.mem_Ico, Finset.mem_Ico]
    constructor
    · rintro ⟨⟨hat, htb⟩, hp⟩
      have := (h t hat htb).mp hp
      omega
    · rintro ⟨hmax, hmin⟩
      have hat : a ≤ t := by omega
      have htb : t < b := by omega
      exact ⟨⟨hat, htb⟩, (h t hat htb).mpr (by omega)⟩
  rw [hfilter, Int.card_Ico]

theorem counted_none (h : ∀ t, a ≤ t → t < b → ¬p t) : counted p a b = 0 := by
  unfold counted
  rw [Finset.card_eq_zero, Finset.filter_eq_empty_iff]
  intro t ht
  rw [Finset.mem_Ico] at ht
  exact h t ht.1 ht.2

/-! ## Moved deadlines -/

section

variable {pause resume due due' : Int}

/-- A pause moves a deadline by what counts of it. What is left to the deadline is then the same
after the pause as before. -/
theorem shift_conserves (hpause : pause ≤ resume) (hdue : due ≤ due')
    (hshift : counted p due due' = counted p pause resume) :
    counted p resume due' = counted p pause due := by
  rcases Int.le_total due' resume with hover | hleft
  · -- The deadline does not pass the end of the pause: nothing was left.
    have hnone : counted p resume due' = 0 := counted_of_le hover
    rcases Int.le_total pause due with hahead | hpast
    · have hbefore := @counted_add p _ pause due resume hahead (Int.le_trans hdue hover)
      have hrest := @counted_add p _ due due' resume hdue hover
      omega
    · rw [hnone, counted_of_le hpast]
  · rcases Int.le_total resume due with hafter | hwithin
    · have hbefore := @counted_add p _ pause resume due hpause hafter
      have hnow := @counted_add p _ resume due due' hafter hdue
      omega
    · have hpassed := @counted_add p _ due resume due' hwithin hleft
      rcases Int.le_total pause due with hahead | hpast
      · have hsplit := @counted_add p _ pause due resume hahead hwithin
        omega
      · -- The deadline had passed, and the pause alone counts as much as it is moved by.
        have hsplit := @counted_add p _ due pause resume hpast hpause
        rw [counted_of_le hpast]
        omega

theorem shift_iff (hpause : pause ≤ resume) (hdue : due ≤ due')
    (hshift : counted p due due' ≤ counted p pause resume) :
    counted p resume due' = counted p pause due ↔
      counted p pause due = 0 ∨ counted p due due' = counted p pause resume := by
  refine ⟨fun h => ?_, fun h => h.elim (fun hnone => ?_) (shift_conserves hpause hdue)⟩
  · rcases Nat.eq_zero_or_pos (counted p pause due) with hnone | hpos
    · exact .inl hnone
    · refine .inr ?_
      have hahead : pause ≤ due := by
        by_contra hpast
        rw [counted_of_le (by omega)] at hpos
        omega
      have hleft : resume ≤ due' := by
        by_contra hover
        rw [counted_of_le (by omega)] at h
        omega
      rcases Int.le_total resume due with hafter | hwithin
      · have hbefore := @counted_add p _ pause resume due hpause hafter
        have hnow := @counted_add p _ resume due due' hafter hdue
        omega
      · have hbefore := @counted_add p _ pause due resume hahead hwithin
        have hnow := @counted_add p _ due resume due' hwithin hleft
        omega
  · rw [hnone]
    rcases Int.le_total due' resume with hover | hleft
    · exact counted_of_le hover
    · rcases Int.le_total resume due with hafter | hwithin
      · have hbefore := @counted_add p _ pause resume due hpause hafter
        have hnow := @counted_add p _ resume due due' hafter hdue
        omega
      · have hnow := @counted_add p _ due resume due' hwithin hleft
        rcases Int.le_total pause due with hahead | hpast
        · have hbefore := @counted_add p _ pause due resume hahead hwithin
          omega
        · have hbefore := @counted_add p _ due pause resume hpast hpause
          omega

end

end Prequest.Lib
