import Mathlib.Data.List.Nodup
import Mathlib.Data.List.Perm.Basic

/-!
# Lists merged by key

A list takes from another one the elements whose key it does not have yet, one for each
key, and keeps its own. What a merged list has of a key is decided there: it is what the
first list has, or the first that the second one has.

* `perm_iff_ofKey`: two lists are the same up to order when they are for each key.
* `mergeByKey_assoc`, `mergeByKey_self`: merging is associative and idempotent.
* `mergeByKey_comm_iff`: when it is commutative.
* `mergeByKey_nil_perm_iff`: when merging into nothing loses nothing.
-/

namespace Prequest.Lib

variable {α κ : Type*} [BEq κ]

/-- One element more, if its key is new. -/
def addByKey (key : α → κ) (l : List α) (a : α) : List α :=
  if l.any fun b => key b == key a then l else l ++ [a]

def mergeByKey (key : α → κ) (l l' : List α) : List α := l'.foldl (addByKey key) l

/-- What a list has of a key. -/
def ofKey (key : α → κ) (k : κ) (l : List α) : List α := l.filter fun a => key a == k

/-! ## One key -/

/-- A list, or the first of another one. -/
def orFirst (l l' : List α) : List α := if l.isEmpty then l'.take 1 else l

/-- Two lists of which it does not matter which one comes first. -/
def Concurring (l l' : List α) : Prop :=
  l.Perm l' ∨ l = [] ∧ l'.length ≤ 1 ∨ l' = [] ∧ l.length ≤ 1

section

variable {l l' : List α}

@[simp] theorem orFirst_nil (l : List α) : orFirst [] l = l.take 1 := rfl

@[simp] theorem orFirst_cons (a : α) (l l' : List α) : orFirst (a :: l) l' = a :: l := rfl

@[simp] theorem orFirst_nil_right (l : List α) : orFirst l [] = l := by cases l <;> rfl

theorem orFirst_self (l : List α) : orFirst l l = l := by cases l <;> rfl

theorem orFirst_eq_nil : orFirst l l' = [] ↔ l = [] ∧ l' = [] := by
  cases l <;> cases l' <;> simp

theorem orFirst_assoc (l l' l'' : List α) :
    orFirst (orFirst l l') l'' = orFirst l (orFirst l' l'') := by
  cases l with
  | cons a l => rfl
  | nil =>
    cases l' with
    | cons b l' => rfl
    | nil => simp [List.take_take]

theorem orFirst_congr (l : List α) {m m' : List α} (h : m.head? = m'.head?) :
    orFirst l m = orFirst l m' := by
  cases l with
  | cons a l => rfl
  | nil => rw [orFirst_nil, orFirst_nil, List.take_one, List.take_one, h]

theorem take_one_perm_iff : (l.take 1).Perm l ↔ l.length ≤ 1 := by
  constructor
  · intro h
    rw [← h.length_eq, List.length_take]
    exact Nat.min_le_left 1 _
  · intro h
    rw [List.take_of_length_le h]

theorem orFirst_comm_iff : (orFirst l l').Perm (orFirst l' l) ↔ Concurring l l' := by
  unfold Concurring
  cases l with
  | nil =>
    rw [orFirst_nil, orFirst_nil_right, take_one_perm_iff]
    constructor
    · exact fun h => .inr (.inl ⟨rfl, h⟩)
    · rintro (h | ⟨_, h⟩ | ⟨rfl, _⟩)
      · rw [← h.length_eq]
        exact Nat.zero_le 1
      · exact h
      · exact Nat.zero_le 1
  | cons a l =>
    cases l' with
    | nil =>
      rw [orFirst_nil, orFirst_nil_right, List.perm_comm, take_one_perm_iff]
      constructor
      · exact fun h => .inr (.inr ⟨rfl, h⟩)
      · rintro (h | ⟨h, _⟩ | ⟨_, h⟩)
        · cases h.eq_nil
        · cases h
        · exact h
    | cons b l' => simp

end

variable [LawfulBEq κ] (key : α → κ) {l l' l'' : List α} {k : κ}

theorem mem_ofKey {a : α} : a ∈ ofKey key k l ↔ a ∈ l ∧ key a = k := by
  rw [ofKey, List.mem_filter, beq_iff_eq]

theorem ofKey_ne_nil : ofKey key k l ≠ [] ↔ ∃ a ∈ l, key a = k := by
  constructor
  · intro h
    obtain ⟨a, ha⟩ := List.exists_mem_of_ne_nil _ h
    exact ⟨a, (mem_ofKey key).mp ha⟩
  · rintro ⟨a, ha⟩
    exact List.ne_nil_of_mem ((mem_ofKey key).mpr ha)

theorem ofKey_addByKey_of_ne {a : α} (h : key a ≠ k) :
    ofKey key k (addByKey key l a) = ofKey key k l := by
  unfold addByKey ofKey
  split
  · rfl
  · rw [List.filter_append, List.filter_cons_of_neg (by simpa using h), List.filter_nil,
      List.append_nil]

theorem ofKey_addByKey_self (a : α) :
    ofKey key (key a) (addByKey key l a) = orFirst (ofKey key (key a) l) [a] := by
  cases hany : l.any fun b => key b == key a with
  | true =>
    obtain ⟨b, hb, hkey⟩ := List.any_eq_true.mp hany
    have hne : ofKey key (key a) l ≠ [] := (ofKey_ne_nil key).mpr ⟨b, hb, beq_iff_eq.mp hkey⟩
    rw [addByKey, hany, if_pos rfl]
    cases hof : ofKey key (key a) l with
    | nil => exact absurd hof hne
    | cons c m => rfl
  | false =>
    have hnil : ofKey key (key a) l = [] := by
      refine List.filter_eq_nil_iff.mpr fun b hb hkey => ?_
      exact Bool.false_ne_true (hany.symm.trans (List.any_eq_true.mpr ⟨b, hb, hkey⟩))
    have hself : ofKey key (key a) [a] = [a] := by
      rw [ofKey, List.filter_cons_of_pos (by simp), List.filter_nil]
    have happend : ofKey key (key a) (l ++ [a]) = ofKey key (key a) l ++ ofKey key (key a) [a] :=
      List.filter_append ..
    rw [addByKey, hany, if_neg Bool.false_ne_true, happend, hnil, hself]
    rfl

theorem ofKey_mergeByKey (k : κ) (l l' : List α) :
    ofKey key k (mergeByKey key l l') = orFirst (ofKey key k l) (ofKey key k l') := by
  unfold mergeByKey
  induction l' generalizing l with
  | nil => exact (orFirst_nil_right _).symm
  | cons a l' ih =>
    rw [List.foldl_cons, ih]
    by_cases hkey : key a = k
    · subst hkey
      have hcons : ofKey key (key a) (a :: l') = a :: ofKey key (key a) l' :=
        List.filter_cons_of_pos BEq.rfl
      rw [ofKey_addByKey_self, orFirst_assoc, hcons, orFirst_cons]
      exact orFirst_congr _ rfl
    · have hcons : ofKey key k (a :: l') = ofKey key k l' :=
        List.filter_cons_of_neg (by simpa using hkey)
      rw [ofKey_addByKey_of_ne key hkey, hcons]

theorem perm_iff_ofKey : l.Perm l' ↔ ∀ k, (ofKey key k l).Perm (ofKey key k l') := by
  classical
  constructor
  · exact fun h k => h.filter _
  · intro h
    refine List.perm_iff_count.mpr fun a => ?_
    have hcount := (h (key a)).count_eq a
    unfold ofKey at hcount
    rwa [List.count_filter (by simp), List.count_filter (by simp)] at hcount

/-! ## Merging -/

theorem exists_key_mergeByKey :
    (∃ a ∈ mergeByKey key l l', key a = k) ↔ (∃ a ∈ l, key a = k) ∨ ∃ a ∈ l', key a = k := by
  rw [← ofKey_ne_nil, ← ofKey_ne_nil, ← ofKey_ne_nil, ofKey_mergeByKey, Ne, orFirst_eq_nil, not_and_or]

theorem mergeByKey_assoc (l l' l'' : List α) :
    (mergeByKey key (mergeByKey key l l') l'').Perm
      (mergeByKey key l (mergeByKey key l' l'')) := by
  refine (perm_iff_ofKey key).mpr fun k => ?_
  simp only [ofKey_mergeByKey, orFirst_assoc]
  exact List.Perm.refl _

theorem mergeByKey_self (l : List α) : (mergeByKey key l l).Perm l := by
  refine (perm_iff_ofKey key).mpr fun k => ?_
  rw [ofKey_mergeByKey, orFirst_self]

theorem mergeByKey_comm_iff : (mergeByKey key l l').Perm (mergeByKey key l' l) ↔
    ∀ k, Concurring (ofKey key k l) (ofKey key k l') := by
  rw [perm_iff_ofKey key]
  simp only [ofKey_mergeByKey, orFirst_comm_iff]

theorem mergeByKey_congr (l : List α)
    (h : ∀ k, (ofKey key k l').head? = (ofKey key k l'').head?) :
    (mergeByKey key l l').Perm (mergeByKey key l l'') := by
  refine (perm_iff_ofKey key).mpr fun k => ?_
  rw [ofKey_mergeByKey, ofKey_mergeByKey, orFirst_congr _ (h k)]

theorem mergeByKey_nil_perm_congr_iff :
    (mergeByKey key [] l).Perm (mergeByKey key [] l') ↔
      ∀ k, (ofKey key k l).head? = (ofKey key k l').head? := by
  constructor
  · intro h k
    have hk := (perm_iff_ofKey key).mp h k
    have hnil : ofKey key k ([] : List α) = [] := rfl
    rw [ofKey_mergeByKey, ofKey_mergeByKey, hnil, orFirst_nil, orFirst_nil, List.take_one,
      List.take_one] at hk
    cases hl : (ofKey key k l).head? with
    | none =>
      cases hl' : (ofKey key k l').head? with
      | none => rfl
      | some b =>
        rw [hl, hl'] at hk
        cases hk.nil_eq
    | some a =>
      cases hl' : (ofKey key k l').head? with
      | none =>
        rw [hl, hl'] at hk
        cases hk.eq_nil
      | some b =>
        rw [hl, hl'] at hk
        rw [List.mem_singleton.mp (hk.mem_iff.mp (List.mem_singleton_self a))]
  · exact mergeByKey_congr key []

omit [LawfulBEq κ] in
theorem length_ofKey (k : κ) (l : List α) : (ofKey key k l).length = (l.map key).count k := by
  rw [ofKey, ← List.countP_eq_length_filter, List.count, List.countP_map]
  rfl

theorem mergeByKey_nil_perm_iff : (mergeByKey key [] l).Perm l ↔ (l.map key).Nodup := by
  rw [perm_iff_ofKey key, List.nodup_iff_count_le_one]
  refine forall_congr' fun k => ?_
  rw [ofKey_mergeByKey, ← length_ofKey, ← take_one_perm_iff]
  rfl

theorem head?_ofKey_of_perm {m : List α} (h : m.Perm (mergeByKey key [] l)) (k : κ) :
    (ofKey key k m).head? = (ofKey key k l).head? := by
  have hk : (ofKey key k m).Perm ((ofKey key k l).take 1) := by
    have hperm := (perm_iff_ofKey key).mp h k
    rwa [ofKey_mergeByKey] at hperm
  cases hl : ofKey key k l with
  | nil =>
    rw [hl, List.take_nil] at hk
    rw [hk.eq_nil]
  | cons a k' =>
    rw [hl] at hk
    rw [List.perm_singleton.mp hk]
    rfl

theorem nodup_keys_mergeByKey_nil (l : List α) : ((mergeByKey key [] l).map key).Nodup := by
  refine List.nodup_iff_count_le_one.mpr fun k => ?_
  rw [← length_ofKey, ofKey_mergeByKey]
  exact List.length_take_le 1 _

end Prequest.Lib
