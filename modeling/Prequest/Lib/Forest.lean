import Mathlib.Data.Nat.Find
import Mathlib.Logic.Function.Basic
import Prequest.Lib.Climb

/-!
# Forests by their parents

A forest is given by the parent of each element. It has no cycle when every chain of
parents ends. An element that is hung elsewhere keeps the chains ending as long as
its new parent is not below it, and every chain that comes through it gets longer or
shorter with its own.

* `Ends.acyclic`: no element is above itself.
* `up_update_of_avoids`, `up_update_through`: chains after one change of a parent.
* `Ends.update`: the chains still end.
* `Within.update_iff`: they are short enough exactly when those below the element leave room for the
  chain of the new parent.
-/

namespace Prequest.Lib

variable {α : Type*} {parent : α → Option α}

theorem up_add (m n : Nat) (k : Option α) : up parent (m + n) k = up parent n (up parent m k) := by
  induction m generalizing k with
  | zero => rw [Nat.zero_add]; rfl
  | succ m ih => rw [Nat.succ_add]; exact ih (k.bind parent)

variable {n : Nat} {k : Option α}

theorem up_eq_none_of_le {m : Nat} (h : up parent m k = none) (hle : m ≤ n) :
    up parent n k = none := by
  obtain ⟨d, rfl⟩ := Nat.exists_eq_add_of_le hle
  rw [up_add, h, up_none]

/-- Every chain ends. -/
def Ends (parent : α → Option α) : Prop := ∀ a, ∃ n, up parent n (some a) = none

/-- Every chain has at most `n` elements. -/
def Within (parent : α → Option α) (n : Nat) : Prop := ∀ a, up parent n (some a) = none

theorem Within.ends (h : Within parent n) : Ends parent := fun a => ⟨n, h a⟩

theorem Ends.chain (h : Ends parent) (k : Option α) : ∃ n, up parent n k = none := by
  cases k with
  | none => exact ⟨0, rfl⟩
  | some a => exact h a

theorem up_cycle {a : α} (h : up parent n (some a) = some a) (m : Nat) :
    up parent (m * n) (some a) = some a := by
  induction m with
  | zero => rw [Nat.zero_mul]; rfl
  | succ m ih => rw [Nat.succ_mul, up_add, ih, h]

theorem Ends.acyclic (h : Ends parent) (a : α) (n : Nat) : up parent (n + 1) (some a) ≠ some a := by
  intro hcycle
  obtain ⟨m, hm⟩ := h a
  have hnone := up_eq_none_of_le hm (Nat.le_mul_of_pos_right m (Nat.succ_pos n))
  rw [up_cycle hcycle m] at hnone
  cases hnone

section

variable {x : α} {q : Option α}

variable {d : Nat}

theorem exists_first (hx : up parent d k = some x) :
    ∃ d, up parent d k = some x ∧ ∀ e, e < d → up parent e k ≠ some x := by
  have hex : ∃ d, up parent d k = some x := ⟨d, hx⟩
  classical
  exact ⟨Nat.find hex, Nat.find_spec hex, fun e he => Nat.find_min hex he⟩

theorem Ends.first (h : Ends parent) (hx : up parent d k = some x) :
    ∀ e, e < d → up parent e k ≠ some x := by
  intro e he hearlier
  obtain ⟨n, rfl⟩ := Nat.exists_eq_add_of_lt he
  rw [Nat.add_assoc, up_add, hearlier] at hx
  exact h.acyclic x n hx

variable [DecidableEq α]

theorem up_update_of_avoids {n : Nat} (h : ∀ d, d < n → up parent d k ≠ some x) :
    up (Function.update parent x q) n k = up parent n k := by
  induction n with
  | zero => rfl
  | succ n ih =>
    rw [up_succ, up_succ, ih fun d hd => h d (Nat.lt_succ_of_lt hd)]
    cases hup : up parent n k with
    | none => rfl
    | some a =>
      have hne : a ≠ x := fun heq => h n n.lt_succ_self (heq ▸ hup)
      exact Function.update_of_ne hne _ _

theorem up_update_through (hx : up parent d k = some x)
    (hfirst : ∀ e, e < d → up parent e k ≠ some x) (havoids : ∀ e, up parent e q ≠ some x)
    (m : Nat) : up (Function.update parent x q) (d + 1 + m) k = up parent m q := by
  have hto : up (Function.update parent x q) d k = some x := by
    rw [up_update_of_avoids hfirst, hx]
  rw [up_add, up_succ, hto, Option.bind_some, Function.update_self]
  exact up_update_of_avoids fun e _ => havoids e

theorem Ends.update (h : Ends parent) (havoids : ∀ e, up parent e q ≠ some x) :
    Ends (Function.update parent x q) := by
  intro a
  by_cases hbelow : ∃ d, up parent d (some a) = some x
  · obtain ⟨d, hd⟩ := hbelow
    obtain ⟨d, hx, hfirst⟩ := exists_first hd
    obtain ⟨m, hm⟩ := h.chain q
    exact ⟨d + 1 + m, (up_update_through hx hfirst havoids m).trans hm⟩
  · obtain ⟨n, hn⟩ := h a
    exact ⟨n, (up_update_of_avoids fun d _ hd => hbelow ⟨d, hd⟩).trans hn⟩

theorem not_ends_update {e : Nat} (hbelow : up parent e q = some x) :
    ¬Ends (Function.update parent x q) := by
  intro hends
  obtain ⟨e, hx, hfirst⟩ := exists_first hbelow
  refine hends.acyclic x e ?_
  rw [Nat.add_comm, up_add]
  show up (Function.update parent x q) e (Function.update parent x q x) = some x
  rw [Function.update_self, up_update_of_avoids hfirst, hx]

/-- What must hold of a new parent: its chain does not come to `x`, and every chain that comes to `x`
leaves room for it. -/
structure Room (parent : α → Option α) (n : Nat) (x : α) (q : Option α) : Prop where
  avoids : ∀ e, up parent e q ≠ some x
  short : ∀ a d, up parent d (some a) = some x → up parent (n - (d + 1)) q = none

theorem Within.update_iff {n : Nat} (h : Within parent n) :
    Within (Function.update parent x q) n ↔ Room parent n x q := by
  constructor
  · intro hnew
    have havoids : ∀ e, up parent e q ≠ some x := fun e he => not_ends_update he hnew.ends
    refine ⟨havoids, fun a d hd => ?_⟩
    have hlt : d < n := by
      by_contra hge
      have hnone := up_eq_none_of_le (h a) (Nat.le_of_not_lt hge)
      rw [hnone] at hd
      cases hd
    have hthrough := up_update_through hd (h.ends.first hd) havoids (n - (d + 1))
    rw [Nat.add_sub_cancel' hlt] at hthrough
    exact hthrough.symm.trans (hnew a)
  · intro hroom a
    by_cases hbelow : ∃ d, up parent d (some a) = some x
    · obtain ⟨d, hd⟩ := hbelow
      have hlt : d < n := by
        by_contra hge
        have hnone := up_eq_none_of_le (h a) (Nat.le_of_not_lt hge)
        rw [hnone] at hd
        cases hd
      have hthrough := up_update_through hd (h.ends.first hd) hroom.avoids (n - (d + 1))
      rw [Nat.add_sub_cancel' hlt] at hthrough
      exact hthrough.trans (hroom.short a d hd)
    · exact (up_update_of_avoids fun d _ hd => hbelow ⟨d, hd⟩).trans (h a)

end

theorem up_congr {parent' : α → Option α}
    (h : ∀ d a, d < n → up parent d k = some a → parent' a = parent a) :
    up parent' n k = up parent n k := by
  induction n with
  | zero => rfl
  | succ n ih =>
    rw [up_succ, up_succ, ih fun d a hd => h d a (Nat.lt_succ_of_lt hd)]
    cases hup : up parent n k with
    | none => rfl
    | some a => exact h n a n.lt_succ_self hup

end Prequest.Lib
