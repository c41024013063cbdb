import Mathlib.Data.List.Sort

/-!
# The first hit of a search

A search that goes through its places in an order and stops at the first that
answers finds the least place that does. Two searches over the same places in
different orders can be compared through the places they find.

* `findSome?_eq_some_iff_first`: a search through a list in order.
* `findSome?_zipIdx`: a loop with a counter is a search through the counters.
* `head?_insertionSort`: a sorted search finds a least place, and any of them.
-/

namespace Prequest.Lib

universe u v

variable {α : Type u} {β γ : Type v} {l : List α}

/-- A place with the property that no other place with it goes before. -/
structure IsFirst (before : α → α → Prop) (ok : α → Prop) (a : α) : Prop where
  has : ok a
  first : ∀ b, ok b → ¬before b a

theorem findSome?_eq_some_iff_first {before : α → α → Prop}
    (hasymm : ∀ a b, before a b → ¬before b a) (hl : l.Pairwise before) {f : α → Option β} {b : β} :
    l.findSome? f = some b ↔
      ∃ a, IsFirst before (fun a => a ∈ l ∧ (f a).isSome = true) a ∧ f a = some b := by
  constructor
  · intro h
    obtain ⟨l₁, a, l₂, rfl, ha, hnone⟩ := List.findSome?_eq_some_iff.mp h
    refine ⟨a, ⟨⟨by simp, by simp [ha]⟩, fun c hc hbefore => ?_⟩, ha⟩
    obtain ⟨_, hrest, hcross⟩ := List.pairwise_append.mp hl
    rcases List.mem_append.mp hc.1 with hmem | hmem
    · have hsome := hc.2
      rw [hnone c hmem] at hsome
      cases hsome
    · rcases List.mem_cons.mp hmem with rfl | hmem
      · exact hasymm c c hbefore hbefore
      · exact hasymm a c ((List.pairwise_cons.mp hrest).1 c hmem) hbefore
  · intro h
    obtain ⟨a, hfirst, ha⟩ := h
    obtain ⟨l₁, l₂, rfl⟩ := List.append_of_mem hfirst.has.1
    refine List.findSome?_eq_some_iff.mpr ⟨l₁, a, l₂, rfl, ha, fun c hc => ?_⟩
    by_contra hne
    have hbefore := (List.pairwise_append.mp hl).2.2 c hc a List.mem_cons_self
    exact hfirst.first c ⟨List.mem_append_left _ hc, Option.isSome_iff_ne_none.mpr hne⟩ hbefore

theorem bind_findSome? {f : α → Option β} {g : β → Option γ}
    (h : ∀ a b, f a = some b → (g b).isSome = true) :
    (l.findSome? f).bind g = l.findSome? fun a => (f a).bind g := by
  induction l with
  | nil => rfl
  | cons a l ih =>
    rw [List.findSome?_cons, List.findSome?_cons]
    cases ha : f a with
    | none => exact ih
    | some b =>
      obtain ⟨c, hc⟩ := Option.isSome_iff_exists.mp (h a b ha)
      simp [hc]

theorem findSome?_flatMap {δ : Type v} {g : α → List δ} {f : δ → Option β} :
    (l.flatMap g).findSome? f = l.findSome? fun a => (g a).findSome? f := by
  induction l with
  | nil => rfl
  | cons a l ih =>
    rw [List.flatMap_cons, List.findSome?_append, List.findSome?_cons, ih]
    cases (g a).findSome? f with
    | none => rfl
    | some b => rfl

theorem findSome?_zipIdx {n : Nat} {u : Nat → Option α} (hl : ∀ i, i < n → l[i]? = u i)
    (hn : l.length ≤ n) (f : α × Nat → Option β) :
    l.zipIdx.findSome? f = (List.range n).findSome? fun i => (u i).bind fun a => f (a, i) := by
  have hgo : ∀ (l : List α) (k m : Nat), l.length ≤ m → (∀ i, i < m → l[i]? = u (k + i)) →
      (l.zipIdx k).findSome? f =
        (List.range' k m).findSome? fun i => (u i).bind fun a => f (a, i) := by
    intro l
    induction l with
    | nil =>
      intro k m _ h
      refine (List.findSome?_eq_none_iff.mpr fun i hi => ?_).symm
      obtain ⟨hk, hm⟩ := List.mem_range'_1.mp hi
      have hnone := h (i - k) (by omega)
      rw [show k + (i - k) = i by omega] at hnone
      rw [← hnone]
      rfl
    | cons a l ih =>
      intro k m hm h
      obtain ⟨m, rfl⟩ : ∃ m', m = m' + 1 := ⟨m - 1, by simp at hm; omega⟩
      have hfirst := h 0 (by omega)
      rw [List.getElem?_cons_zero, Nat.add_zero] at hfirst
      rw [List.zipIdx_cons, List.range'_succ, List.findSome?_cons, List.findSome?_cons, ← hfirst]
      rw [ih (k + 1) m (by simpa using hm) fun i hi => ?_]
      · rfl
      · have hnext := h (i + 1) (by omega)
        rw [List.getElem?_cons_succ] at hnext
        rw [hnext, Nat.add_assoc, Nat.add_comm 1 i]
  rw [List.range_eq_range']
  exact hgo l 0 n hn fun i hi => by rw [hl i hi, Nat.zero_add]

section

variable {r : α → α → Prop} [DecidableRel r] [Std.Total r] [IsTrans α r]

theorem head?_insertionSort {a : α} (h : (l.insertionSort r).head? = some a) :
    a ∈ l ∧ ∀ b ∈ l, r a b := by
  obtain ⟨rest, hsort⟩ := List.head?_eq_some_iff.mp h
  have hmem : ∀ b, b ∈ l ↔ b ∈ a :: rest := by
    intro b
    rw [← hsort, List.mem_insertionSort]
  refine ⟨(hmem a).mpr List.mem_cons_self, fun b hb => ?_⟩
  have hsorted := List.pairwise_insertionSort r l
  rw [hsort] at hsorted
  rcases List.mem_cons.mp ((hmem b).mp hb) with rfl | hb
  · exact (or_self_iff.mp (Std.Total.total b b : r b b ∨ r b b))
  · exact (List.pairwise_cons.mp hsorted).1 b hb

omit [Std.Total r] [IsTrans α r] in
theorem head?_insertionSort_cons {a : α} (h : ∀ b ∈ l, r a b) :
    ((a :: l).insertionSort r).head? = some a := by
  rw [List.insertionSort_cons]
  cases hsort : l.insertionSort r with
  | nil => rfl
  | cons b rest =>
    have hb : b ∈ l := (List.mem_insertionSort r).mp (by rw [hsort]; exact List.mem_cons_self)
    rw [List.orderedInsert_cons_of_le r rest (h b hb)]
    rfl

end

end Prequest.Lib
