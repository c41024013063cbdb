import Mathlib.Data.List.Basic
import Mathlib.Data.List.Sort
import Mathlib.Order.MinMax

/-!
# Intervals of a linear order

An interval is a start and an end that is not part of it.

* `Covered`, `Overlaps`: the points of a list of intervals, and the intervals that it meets.
* `not_overlaps_iff`: an overlap is a common point.
-/

namespace Prequest.Lib

variable {α : Type} [LinearOrder α]

/-- A point that lies in one of the intervals. -/
def Covered (l : List (α × α)) (x : α) : Prop := ∃ i ∈ l, i.1 ≤ x ∧ x < i.2

/-- The interval meets the one from `s` to `e`. -/
def Overlaps (i : α × α) (s e : α) : Prop := i.1 < e ∧ s < i.2

theorem covered_cons {i : α × α} {l : List (α × α)} {x : α} :
    Covered (i :: l) x ↔ (i.1 ≤ x ∧ x < i.2) ∨ Covered l x := by
  unfold Covered
  exact List.exists_mem_cons_iff _ _ _

theorem covered_of_perm {l l' : List (α × α)} (h : l.Perm l') {x : α} :
    Covered l x ↔ Covered l' x := by
  unfold Covered
  simp only [h.mem_iff]

theorem not_overlaps_iff {l : List (α × α)} (hl : ∀ i ∈ l, i.1 < i.2) {s e : α} (hse : s < e) :
    (∀ i ∈ l, ¬Overlaps i s e) ↔ ∀ x, s ≤ x → x < e → ¬Covered l x := by
  constructor
  · rintro h x hsx hxe ⟨i, hi, hix, hxi⟩
    exact h i hi ⟨lt_of_le_of_lt hix hxe, lt_of_le_of_lt hsx hxi⟩
  · intro h i hi hover
    exact h (max i.1 s) (le_max_right _ _) (max_lt hover.1 hse)
      ⟨i, hi, le_max_left _ _, max_lt (hl i hi) hover.2⟩

/-! ## The first few -/

/-- The first elements with a property, in order: `n` of them, or all that there are. -/
structure FirstOf (n : Nat) (P : α → Prop) (l : List α) : Prop where
  sorted : l.Pairwise (· < ·)
  short : l.length ≤ n
  sound : ∀ x ∈ l, P x
  complete : ∀ x, P x → x ∈ l ∨ l.length = n ∧ ∀ y ∈ l, y < x

/-- `n` elements with the property come before `x`. -/
def Beyond (n : Nat) (P : α → Prop) (x : α) : Prop :=
  ∃ l : List α, l.length = n ∧ l.Pairwise (· < ·) ∧ ∀ y ∈ l, P y ∧ y < x

theorem firstOf_take {n : Nat} {P : α → Prop} {l : List α} (hl : l.Pairwise (· < ·))
    (hmem : ∀ x, x ∈ l ↔ P x) : FirstOf n P (l.take n) where
  sorted := hl.sublist (List.take_sublist n l)
  short := List.length_take_le n l
  sound x hx := (hmem x).mp (List.mem_of_mem_take hx)
  complete := by
    intro x hx
    have hsplit := (hmem x).mpr hx
    have hcross := hl
    rw [← List.take_append_drop n l] at hsplit hcross
    rcases List.mem_append.mp hsplit with htake | hdrop
    · exact .inl htake
    · refine .inr ⟨?_, fun y hy => (List.pairwise_append.mp hcross).2.2 y hy x hdrop⟩
      rw [List.length_take]
      apply Nat.min_eq_left
      by_contra hshort
      rw [List.drop_eq_nil_of_le (Nat.le_of_not_le hshort)] at hdrop
      exact absurd hdrop List.not_mem_nil

section

variable {n : Nat} {P Q : α → Prop} {l : List α} {x : α}

/-- None of the first `n` has `n` before it. -/
theorem FirstOf.not_beyond (h : FirstOf n P l) (hx : x ∈ l) : ¬Beyond n P x := by
  rintro ⟨l', hlength, hsorted, hbefore⟩
  -- All of `l'` comes before `x`, so it is in `l`, which is then too long.
  have hsub : x :: l' ⊆ l := by
    refine List.cons_subset.mpr ⟨hx, fun y hy => ?_⟩
    refine (h.complete y (hbefore y hy).1).resolve_right fun hlate => ?_
    exact lt_asymm (hbefore y hy).2 (hlate.2 x hx)
  have hnodup : (x :: l').Nodup :=
    List.nodup_cons.mpr ⟨fun hmem => lt_irrefl x (hbefore x hmem).2, hsorted.imp ne_of_lt⟩
  have hlong := (List.subperm_of_subset hnodup hsub).length_le
  rw [List.length_cons, hlength] at hlong
  exact absurd h.short (Nat.not_le.mpr hlong)

theorem FirstOf.mem_of_not_beyond (h : FirstOf n P l) (hP : P x) (hx : ¬Beyond n P x) : x ∈ l :=
  (h.complete x hP).resolve_right fun ⟨hfull, hbefore⟩ =>
    hx ⟨l, hfull, h.sorted, fun y hy => ⟨h.sound y hy, hbefore y hy⟩⟩

theorem FirstOf.restrict (h : FirstOf n P l) (hQ : ∀ x, Q x → P x) (hl : ∀ x ∈ l, Q x) :
    FirstOf n Q l where
  sorted := h.sorted
  short := h.short
  sound := hl
  complete x hx := h.complete x (hQ x hx)

end

end Prequest.Lib
