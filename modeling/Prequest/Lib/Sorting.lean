import Mathlib.Data.List.Sort

/-!
# Sorting and filtering

A stable sort of the elements that pass a test is the sorted list without the
others: it does not matter whether rows are left out by the query or after it.

* `filter_insertionSort`: leaving elements out commutes with sorting.
* `insertionSort_eq_of_perm`: a list and a permutation of it are sorted to one list when the order
  tells their elements apart.
* `insertionSort_eq_iff`: two lists are sorted to one when they have the elements of each tie in
  one sequence.
* `take_eq_take_iff`: when two increasing lists begin with the same elements.
* `take_eq_take_iff_count`: when a list with repetitions begins as the one without them.
-/

namespace Prequest.Lib

universe u

variable {α : Type u} {r : α → α → Prop} [DecidableRel r] [IsTrans α r] {l l' : List α}

omit [IsTrans α r] in
theorem orderedInsert_of_forall {a : α} (h : ∀ b ∈ l, r a b) : l.orderedInsert r a = a :: l := by
  cases l with
  | nil => rfl
  | cons b l => exact List.orderedInsert_cons_of_le r l (h b List.mem_cons_self)

theorem filter_orderedInsert (hsorted : l.Pairwise r) (p : α → Bool) (a : α) :
    (l.orderedInsert r a).filter p =
      if p a then (l.filter p).orderedInsert r a else l.filter p := by
  induction l with
  | nil => cases hp : p a <;> simp [hp]
  | cons b l ih =>
    obtain ⟨hb, hl⟩ := List.pairwise_cons.mp hsorted
    by_cases hab : r a b
    · rw [List.orderedInsert_cons_of_le r l hab]
      have hfirst : ∀ c ∈ (b :: l).filter p, r a c := by
        intro c hc
        rcases List.mem_cons.mp (List.mem_filter.mp hc).1 with rfl | hmem
        · exact hab
        · exact trans_of r hab (hb c hmem)
      cases hp : p a with
      | true => rw [List.filter_cons_of_pos hp, if_pos rfl, orderedInsert_of_forall hfirst]
      | false => rw [List.filter_cons_of_neg (by simp [hp]), if_neg Bool.false_ne_true]
    · rw [List.orderedInsert_of_not_le r l hab]
      cases hpb : p b with
      | true =>
        rw [List.filter_cons_of_pos hpb, ih hl, List.filter_cons_of_pos hpb]
        cases hp : p a with
        | true => simp [hab]
        | false => simp
      | false =>
        have hneg : ¬p b = true := by simp [hpb]
        rw [List.filter_cons_of_neg hneg, ih hl, List.filter_cons_of_neg hneg]

theorem filter_insertionSort [Std.Total r] (p : α → Bool) (l : List α) :
    (l.insertionSort r).filter p = (l.filter p).insertionSort r := by
  induction l with
  | nil => rfl
  | cons a l ih =>
    rw [List.insertionSort_cons, filter_orderedInsert (List.pairwise_insertionSort r l), ih]
    cases hp : p a with
    | true => rw [if_pos rfl, List.filter_cons_of_pos hp, List.insertionSort_cons]
    | false => rw [if_neg Bool.false_ne_true, List.filter_cons_of_neg (by simp [hp])]

theorem insertionSort_eq_of_perm [Std.Total r] (hperm : l.Perm l')
    (hanti : ∀ a ∈ l, ∀ b ∈ l, r a b → r b a → a = b) : l.insertionSort r = l'.insertionSort r := by
  refine List.Perm.eq_of_pairwise ?_ (List.pairwise_insertionSort r l)
    (List.pairwise_insertionSort r l') (((List.perm_insertionSort r l).trans hperm).trans
      (List.perm_insertionSort r l').symm)
  intro a b ha hb hab hba
  have ha' := (List.mem_insertionSort r).mp ha
  have hb' := (List.mem_insertionSort r).mp hb
  exact hanti a ha' b (hperm.mem_iff.mpr hb') hab hba

/-- The elements of a list that tie with a given one. -/
def tiesWith (r : α → α → Prop) [DecidableRel r] (c : α) (l : List α) : List α :=
  l.filter fun a => decide (r a c) && decide (r c a)

omit [IsTrans α r] in
theorem mem_tiesWith {a c : α} : a ∈ tiesWith r c l ↔ a ∈ l ∧ r a c ∧ r c a := by
  simp [tiesWith]

theorem tiesWith_insertionSort [Std.Total r] (c : α) (l : List α) :
    tiesWith r c (l.insertionSort r) = tiesWith r c l := by
  unfold tiesWith
  rw [filter_insertionSort]
  refine List.Pairwise.insertionSort_eq (List.pairwise_of_forall_mem_list ?_)
  intro a ha b hb
  exact trans_of r (mem_tiesWith.mp ha).2.1 (mem_tiesWith.mp hb).2.2

omit [IsTrans α r] in
theorem eq_of_tiesWith_eq [Std.Total r] (hl : l.Pairwise r) (hl' : l'.Pairwise r)
    (h : ∀ c, tiesWith r c l = tiesWith r c l') : l = l' := by
  have hrefl : ∀ a, r a a := fun a => (Std.Total.total (r := r) a a).elim id id
  induction l generalizing l' with
  | nil =>
    cases l' with
    | nil => rfl
    | cons b l' =>
      have hb : b ∈ tiesWith r b (b :: l') := mem_tiesWith.mpr ⟨List.mem_cons_self, hrefl b, hrefl b⟩
      rw [← h b] at hb
      cases (mem_tiesWith.mp hb).1
  | cons a l ih =>
    have ha : a ∈ tiesWith r a l' := by
      rw [← h a]
      exact mem_tiesWith.mpr ⟨List.mem_cons_self, hrefl a, hrefl a⟩
    cases l' with
    | nil => cases (mem_tiesWith.mp ha).1
    | cons b l' =>
      -- Each head comes before the other one, so the two heads are the first of one tie.
      have hb : b ∈ tiesWith r b (a :: l) := by
        rw [h b]
        exact mem_tiesWith.mpr ⟨List.mem_cons_self, hrefl b, hrefl b⟩
      have hab : r a b := by
        rcases List.mem_cons.mp (mem_tiesWith.mp hb).1 with rfl | hmem
        · exact hrefl b
        · exact List.rel_of_pairwise_cons hl hmem
      have hba : r b a := by
        rcases List.mem_cons.mp (mem_tiesWith.mp ha).1 with rfl | hmem
        · exact hrefl a
        · exact List.rel_of_pairwise_cons hl' hmem
      have hheads := h a
      simp only [tiesWith] at hheads
      rw [List.filter_cons_of_pos (by simp [hrefl a]),
        List.filter_cons_of_pos (by simp [hab, hba])] at hheads
      obtain rfl := (List.cons.inj hheads).1
      congr 1
      refine ih hl.tail hl'.tail fun c => ?_
      have hc := h c
      simp only [tiesWith, List.filter_cons] at hc
      split at hc
      · exact (List.cons.inj hc).2
      · exact hc

theorem insertionSort_eq_iff [Std.Total r] :
    l.insertionSort r = l'.insertionSort r ↔ ∀ c, tiesWith r c l = tiesWith r c l' := by
  constructor
  · intro h c
    rw [← tiesWith_insertionSort c l, h, tiesWith_insertionSort]
  · intro h
    refine eq_of_tiesWith_eq (List.pairwise_insertionSort r l) (List.pairwise_insertionSort r l') ?_
    intro c
    rw [tiesWith_insertionSort, tiesWith_insertionSort, h c]

/-! ## Beginnings of sorted lists -/

section

variable {β : Type u} [LinearOrder β] {xs ys : List β} {y d : β}

/-- How many elements of a list come before a place. -/
def countBefore (ys : List β) (d : β) : Nat := (ys.filter fun e => decide (e < d)).length

theorem countBefore_eq_zero {d : β} (h : ∀ e ∈ ys, d ≤ e) : countBefore ys d = 0 := by
  unfold countBefore
  rw [List.filter_eq_nil_iff.mpr]
  · rfl
  · intro e he
    simpa using h e he

theorem countBefore_cons (hlt : y < d) (ys : List β) :
    countBefore (y :: ys) d = countBefore ys d + 1 := by
  unfold countBefore
  rw [List.filter_cons_of_pos (by simpa using hlt), List.length_cons]

theorem le_of_mem_cons (h : (y :: ys).Pairwise (· < ·)) (hd : d ∈ y :: ys) : y ≤ d := by
  rcases List.mem_cons.mp hd with rfl | hd
  · exact le_rfl
  · exact (List.rel_of_pairwise_cons h hd).le

theorem not_mem_of_lt (h : (y :: ys).Pairwise (· < ·)) (hd : d < y) :
    d ∉ y :: ys := fun hmem => hd.not_ge (le_of_mem_cons h hmem)

/-- Two increasing lists have the same first `n` elements when they agree on every element before
which fewer than `n` of the second list come. -/
theorem take_eq_take_iff (hx : xs.Pairwise (· < ·)) (hy : ys.Pairwise (· < ·)) (n : Nat) :
    xs.take n = ys.take n ↔ ∀ d, countBefore ys d < n → (d ∈ xs ↔ d ∈ ys) := by
  induction n generalizing xs ys with
  | zero => simp
  | succ n ih =>
    cases ys with
    | nil =>
      cases xs with
      | nil => simp
      | cons x xs =>
        refine iff_of_false (by simp) fun h => ?_
        cases (h x (Nat.zero_lt_succ n)).mp List.mem_cons_self
    | cons y ys =>
      have hfirst : ∀ d, d ≤ y → countBefore (y :: ys) d < n + 1 := by
        intro d hd
        rw [countBefore_eq_zero fun e he => hd.trans (le_of_mem_cons hy he)]
        exact Nat.zero_lt_succ n
      cases xs with
      | nil =>
        refine iff_of_false (by simp) fun h => ?_
        cases (h y (hfirst y le_rfl)).mpr List.mem_cons_self
      | cons x xs =>
        rw [List.take_succ_cons, List.take_succ_cons, List.cons.injEq]
        rcases lt_trichotomy x y with hlt | rfl | hgt
        · refine iff_of_false (fun heq => hlt.ne heq.1) fun h => ?_
          exact not_mem_of_lt hy hlt ((h x (hfirst x hlt.le)).mp List.mem_cons_self)
        · rw [and_iff_right rfl, ih (List.pairwise_cons.mp hx).2 (List.pairwise_cons.mp hy).2]
          constructor
          · intro h d hd
            rcases lt_trichotomy x d with hlt | rfl | hgt
            · rw [countBefore_cons hlt] at hd
              rw [List.mem_cons, List.mem_cons, h d (Nat.lt_of_succ_lt_succ hd)]
            · exact iff_of_true List.mem_cons_self List.mem_cons_self
            · exact iff_of_false (not_mem_of_lt hx hgt) (not_mem_of_lt hy hgt)
          · intro h d hd
            rcases lt_or_ge x d with hlt | hge
            · have hd' : countBefore (x :: ys) d < n + 1 := by
                rw [countBefore_cons hlt]
                exact Nat.succ_lt_succ hd
              have hiff := h d hd'
              rwa [List.mem_cons, List.mem_cons, or_iff_right hlt.ne', or_iff_right hlt.ne']
                at hiff
            · exact iff_of_false (fun hmem => (List.rel_of_pairwise_cons hx hmem).not_ge hge)
                fun hmem => (List.rel_of_pairwise_cons hy hmem).not_ge hge
        · refine iff_of_false (fun heq => hgt.ne heq.1.symm) fun h => ?_
          exact not_mem_of_lt hx hgt ((h y (hfirst y le_rfl)).mpr List.mem_cons_self)

theorem eq_of_mem_iff (hx : xs.Pairwise (· < ·)) (hy : ys.Pairwise (· < ·))
    (h : ∀ d, d ∈ xs ↔ d ∈ ys) : xs = ys := by
  have htake := (take_eq_take_iff hx hy (max xs.length ys.length)).mpr fun d _ => h d
  rwa [List.take_of_length_le (le_max_left _ _), List.take_of_length_le (le_max_right _ _)]
    at htake

/-- A sorted list with repetitions has the first `n` elements of the increasing list of the same
elements when all of these but the last occur once. -/
theorem take_eq_take_iff_count (hx : xs.Pairwise (· ≤ ·)) (hy : ys.Pairwise (· < ·))
    (hmem : ∀ d, d ∈ xs ↔ d ∈ ys) (n : Nat) :
    xs.take n = ys.take n ↔ ∀ d ∈ ys, countBefore ys d + 1 < n → xs.count d = 1 := by
  induction n generalizing xs ys with
  | zero => simp
  | succ n ih =>
    cases ys with
    | nil =>
      have hnil : xs = [] := List.eq_nil_iff_forall_not_mem.mpr fun d hd =>
        List.not_mem_nil ((hmem d).mp hd)
      simp [hnil]
    | cons y ys =>
      obtain ⟨xs, rfl⟩ : ∃ xs', xs = y :: xs' := by
        cases xs with
        | nil => cases (hmem y).mpr List.mem_cons_self
        | cons x xs =>
          have hxy : x ≤ y := by
            rcases List.mem_cons.mp ((hmem y).mpr List.mem_cons_self) with rfl | hin
            · exact le_rfl
            · exact List.rel_of_pairwise_cons hx hin
          have hyx : y ≤ x := le_of_mem_cons hy ((hmem x).mp List.mem_cons_self)
          exact ⟨xs, by rw [le_antisymm hxy hyx]⟩
      rw [List.take_succ_cons, List.take_succ_cons, List.cons.injEq, and_iff_right rfl]
      have hfirst : countBefore (y :: ys) y = 0 :=
        countBefore_eq_zero fun e he => le_of_mem_cons hy he
      by_cases hagain : y ∈ xs
      · -- The first element is repeated, so the lists differ in their second place.
        cases n with
        | zero =>
          refine iff_of_true rfl fun d _ hd => ?_
          omega
        | succ n =>
          obtain ⟨xs, rfl⟩ : ∃ xs', xs = y :: xs' := by
            cases xs with
            | nil => cases hagain
            | cons x xs =>
              have hyx : y ≤ x := List.rel_of_pairwise_cons hx List.mem_cons_self
              have hxy : x ≤ y := by
                rcases List.mem_cons.mp hagain with rfl | hin
                · exact le_rfl
                · exact List.rel_of_pairwise_cons hx.tail hin
              exact ⟨xs, by rw [le_antisymm hxy hyx]⟩
          refine iff_of_false ?_ fun h => ?_
          · intro heq
            have hin : y ∈ ys.take (n + 1) := heq ▸ List.mem_cons_self
            exact lt_irrefl y (List.rel_of_pairwise_cons hy (List.mem_of_mem_take hin))
          · have hcount := h y List.mem_cons_self (by omega)
            rw [List.count_cons_self, List.count_cons_self] at hcount
            omega
      · have hmem' : ∀ d, d ∈ xs ↔ d ∈ ys := by
          intro d
          have hd := hmem d
          rw [List.mem_cons, List.mem_cons] at hd
          by_cases heq : d = y
          · subst heq
            exact iff_of_false hagain fun hin => lt_irrefl d (List.rel_of_pairwise_cons hy hin)
          · rwa [or_iff_right heq, or_iff_right heq] at hd
        rw [ih (List.pairwise_cons.mp hx).2 (List.pairwise_cons.mp hy).2 hmem']
        constructor
        · intro h d hd hcount
          rcases List.mem_cons.mp hd with rfl | hin
          · rw [List.count_cons_self, List.count_eq_zero_of_not_mem hagain]
          · have hlt := List.rel_of_pairwise_cons hy hin
            rw [countBefore_cons hlt] at hcount
            rw [List.count_cons_of_ne hlt.ne]
            exact h d hin (by omega)
        · intro h d hd hcount
          have hlt := List.rel_of_pairwise_cons hy hd
          have hone := h d (List.mem_cons_of_mem y hd) (by rw [countBefore_cons hlt]; omega)
          rwa [List.count_cons_of_ne hlt.ne] at hone

end

end Prequest.Lib
