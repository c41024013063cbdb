import Mathlib.Data.List.Basic
import Mathlib.Data.List.Count
import Mathlib.Order.Lattice

/-!
# Sweeps

A sweep reads the pending items in order of their age, stops after `limit` of
them, leaves those that are held and treats the rest, or the first `cap` of it.
The limit counts the held items as well.

* `batches`: a list in pieces of a fixed size, as a loop with a stride reads it.
* `exists_head_not_held`: fewer than `limit` held items that are not younger
  leave room for one that is not held.
-/

namespace Prequest.Lib

variable {α : Type*}

/-! ## Batches -/

/-- The list in pieces of the given size; the last one may be shorter. -/
def batches (size : Nat) (hsize : 0 < size) : List α → List (List α)
  | [] => []
  | a :: as => (a :: as).take size :: batches size hsize ((a :: as).drop size)
termination_by as => as.length
decreasing_by
  simp only [List.length_drop, List.length_cons]
  omega

theorem batches_flatten (size : Nat) (hsize : 0 < size) (as : List α) :
    (batches size hsize as).flatten = as := by
  induction as using batches.induct size hsize with
  | case1 => simp [batches]
  | case2 a as ih =>
    rw [batches, List.flatten_cons, ih]
    exact List.take_append_drop size (a :: as)

theorem mem_of_mem_batches {size : Nat} {hsize : 0 < size} {as b : List α}
    (hb : b ∈ batches size hsize as) {a : α} (ha : a ∈ b) : a ∈ as := by
  rw [← batches_flatten size hsize as]
  exact List.mem_flatten.mpr ⟨b, hb, ha⟩

/-! ## The limit -/

variable {β : Type*} [LinearOrder β] {age : α → β} {held : α → Bool}

/-- In a list sorted by age, what is left of the first `limit` items starts with one that is not
younger than `a`, when fewer than `limit` held items are as old as `a`. -/
theorem exists_head_not_held {as : List α} (hsorted : as.Pairwise fun a b => age a ≤ age b) {a : α}
    (ha : a ∈ as) (hfree : held a = false) {limit : Nat}
    (hfew : as.countP (fun b => held b && decide (age b ≤ age a)) < limit) :
    ∃ b rest, (as.take limit).filter (fun b => !held b) = b :: rest ∧ age b ≤ age a := by
  induction as generalizing limit with
  | nil => cases ha
  | cons b as ih =>
    cases limit with
    | zero => omega
    | succ limit =>
      have hba : age b ≤ age a := by
        rcases List.mem_cons.mp ha with rfl | ha
        · exact le_refl _
        · exact (List.pairwise_cons.mp hsorted).1 a ha
      rw [List.take_succ_cons]
      cases hb : held b with
      | false => exact ⟨b, _, List.filter_cons_of_pos (by simp [hb]), hba⟩
      | true =>
        rw [List.filter_cons_of_neg (by simp [hb])]
        have ha' : a ∈ as := by
          rcases List.mem_cons.mp ha with rfl | ha
          · rw [hb] at hfree
            cases hfree
          · exact ha
        rw [List.countP_cons_of_pos (by simp [hb, hba])] at hfew
        exact ih (List.pairwise_cons.mp hsorted).2 ha' (by omega)

end Prequest.Lib
