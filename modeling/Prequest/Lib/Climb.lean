import Mathlib.Data.List.Basic

/-!
# Climbing along a partial function

A reference to a parent is a partial function. The ids from one element upwards,
up to a depth, are a list; the element at a depth is the same whatever the depth at
which the climb stops.

* `climb`: the elements from one upwards, at most so many of them.
* `getElem?_climb`: the elements of a climb.
-/

namespace Prequest.Lib

variable {α : Type*} {next : α → Option α}

/-- The elements from `k` upwards, at most `n` of them. -/
def climb (next : α → Option α) : Nat → Option α → List α
  | 0, _ => []
  | _ + 1, none => []
  | n + 1, some a => a :: climb next n (next a)

/-- The element `n` steps above `k`. -/
def up (next : α → Option α) : Nat → Option α → Option α
  | 0, k => k
  | n + 1, k => up next n (k.bind next)

@[simp] theorem up_none (n : Nat) : up next n none = none := by
  induction n with
  | zero => rfl
  | succ n ih => exact ih

theorem up_succ (n : Nat) (k : Option α) : up next (n + 1) k = (up next n k).bind next := by
  induction n generalizing k with
  | zero => rfl
  | succ n ih => exact ih (k.bind next)

theorem length_climb_le (n : Nat) (k : Option α) : (climb next n k).length ≤ n := by
  induction n generalizing k with
  | zero => simp [climb]
  | succ n ih =>
    cases k with
    | none => simp [climb]
    | some a => simpa [climb] using ih (next a)

theorem getElem?_climb {n i : Nat} (h : i < n) (k : Option α) :
    (climb next n k)[i]? = up next i k := by
  induction n generalizing i k with
  | zero => omega
  | succ n ih =>
    cases k with
    | none => simp [climb]
    | some a =>
      cases i with
      | zero => rfl
      | succ i => exact ih (by omega) (next a)

theorem getElem?_climb_eq_some {n i : Nat} {k : Option α} {a : α} :
    (climb next n k)[i]? = some a ↔ i < n ∧ up next i k = some a := by
  by_cases h : i < n
  · rw [getElem?_climb h]
    exact (and_iff_right h).symm
  · have hlen := (length_climb_le n k : (climb next n k).length ≤ n)
    rw [List.getElem?_eq_none (by omega)]
    exact iff_of_false nofun fun hup => h hup.1

end Prequest.Lib
