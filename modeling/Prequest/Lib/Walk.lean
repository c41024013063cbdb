import Mathlib.Data.List.Perm.Subperm
import Prequest.Lib.Table

/-!
# Walks along a reference

A row of a table may refer to one other row of it, as a space does to its parent.
A walk follows the reference for a bounded number of rows, asking for one row at
a time. The rows of many walks can be read in advance, one query for each layer
of references; an answer has a limited number of rows. The walks on what was
read are those on the table as long as no answer leaves a row out.

* `walk_take`: a shorter walk is the start of a longer one.
* `walk_fetchAll`: a walk on the rows read ahead.
-/

namespace Prequest.Lib

universe u v

variable {ρ : Type u} {κ : Type v} {k : κ}

/-- The rows from `k` on, at most `n` of them. -/
def walk (lookup : κ → Option ρ) (next : ρ → Option κ) : Nat → Option κ → List ρ
  | 0, _ => []
  | _ + 1, none => []
  | n + 1, some k =>
      match lookup k with
      | none => []
      | some r => r :: walk lookup next n (next r)

section

variable {lookup : κ → Option ρ} {next : ρ → Option κ}

@[simp] theorem walk_none (n : Nat) : walk lookup next n none = [] := by
  cases n <;> rfl

theorem walk_take (n m : Nat) (k : Option κ) :
    (walk lookup next (n + m) k).take n = walk lookup next n k := by
  induction n generalizing k with
  | zero => simp [walk]
  | succ n ih =>
    cases k with
    | none => simp
    | some k =>
      rw [Nat.succ_add, walk, walk]
      cases lookup k with
      | none => simp
      | some r => simpa using ih (next r)

theorem walk_congr {lookup' : κ → Option ρ} {seen : List κ}
    (hlookup : ∀ k ∈ seen, lookup k = lookup' k)
    (hnext : ∀ k ∈ seen, ∀ r, lookup k = some r → ∀ k', next r = some k' → k' ∈ seen)
    (hk : k ∈ seen) (n : Nat) : walk lookup next n (some k) = walk lookup' next n (some k) := by
  induction n generalizing k with
  | zero => rfl
  | succ n ih =>
    rw [walk, walk, ← hlookup k hk]
    cases hrow : lookup k with
    | none => rfl
    | some r =>
      show r :: walk lookup next n (next r) = r :: walk lookup' next n (next r)
      cases hparent : next r with
      | none => simp
      | some k' => rw [ih (hnext k hk r hrow k' hparent)]

end

/-! ## Reading ahead -/

/-- The rows read so far, the keys asked for, and the keys of the next query. -/
structure Fetch (ρ : Type u) (κ : Type v) where
  fetched : List ρ
  seen : List κ
  layer : List κ

variable [Keyed ρ κ] [DecidableEq κ]

/-- The row with a key among those read. -/
def lookupIn (rows : List ρ) (k : κ) : Option ρ := rows.find? fun r => decide (key r = k)

section

variable (next : ρ → Option κ)

/-- A row that was read; the row it refers to is asked for if it was not before. -/
def Fetch.note (s : Fetch ρ κ) (r : ρ) : Fetch ρ κ :=
  let fetched := s.fetched ++ [r]
  match next r with
  | none => { s with fetched := fetched }
  | some k =>
      if (lookupIn fetched k).isSome ∨ k ∈ s.seen then { s with fetched := fetched }
      else { fetched := fetched, seen := s.seen ++ [k], layer := s.layer ++ [k] }

/-- The rows of one query, which answers with at most `limit` of them. -/
def asked (limit : Nat) (t : Table ρ) (s : Fetch ρ κ) : List ρ :=
  (t.rows.filter fun r => decide (key r ∈ s.layer)).take limit

def fetchLayer (limit : Nat) (t : Table ρ) (s : Fetch ρ κ) : Fetch ρ κ :=
  (asked limit t s).foldl (Fetch.note next) { s with layer := [] }

/-- Queries until a layer is empty. -/
def fetchLayers (limit : Nat) (t : Table ρ) : Nat → Fetch ρ κ → Fetch ρ κ
  | 0, s => s
  | n + 1, s => if s.layer.isEmpty then s else fetchLayers limit t n (fetchLayer next limit t s)

/-- All rows that the rows of `ks` refer to, over any number of steps. Every query but the last
reads a row, so one more than the table has rows are enough. -/
def fetchAll (limit : Nat) (t : Table ρ) (ks : List κ) : List ρ :=
  (fetchLayers next limit t (t.rows.length + 1) ⟨[], ks, ks⟩).fetched

end

variable {next : ρ → Option κ} {limit : Nat} {t : Table ρ} {ks : List κ}

theorem lookupIn_isSome {rows : List ρ} :
    (lookupIn rows k).isSome = true ↔ ∃ r ∈ rows, key r = k := by
  simp [lookupIn, List.find?_isSome]

theorem foldl_note (next : ρ → Option κ) (rows : List ρ) (s : Fetch ρ κ)
    (hfetched : ∀ r ∈ s.fetched, key r ∈ s.seen) (hrows : ∀ r ∈ rows, key r ∈ s.seen) :
    (rows.foldl (Fetch.note next) s).fetched = s.fetched ++ rows ∧
      (∀ k, k ∈ (rows.foldl (Fetch.note next) s).seen ↔
        k ∈ s.seen ∨ ∃ r ∈ rows, next r = some k) ∧
      ∀ k, k ∈ (rows.foldl (Fetch.note next) s).layer ↔
        k ∈ s.layer ∨ k ∉ s.seen ∧ ∃ r ∈ rows, next r = some k := by
  induction rows generalizing s with
  | nil => simp
  | cons r rows ih =>
    obtain ⟨hr, hrows⟩ := List.forall_mem_cons.mp hrows
    have hadded : ∀ q ∈ s.fetched ++ [r], key q ∈ s.seen := by
      intro q hq
      rcases List.mem_append.mp hq with hq | hq
      · exact hfetched q hq
      · exact List.mem_singleton.mp hq ▸ hr
    rw [List.foldl_cons]
    cases hnext : next r with
    | none =>
      have hnote : s.note next r = { s with fetched := s.fetched ++ [r] } := by
        simp [Fetch.note, hnext]
      rw [hnote]
      obtain ⟨h1, h2, h3⟩ := ih { s with fetched := s.fetched ++ [r] } hadded hrows
      refine ⟨by rw [h1, List.append_assoc]; rfl, fun k => ?_, fun k => ?_⟩
      · rw [h2 k]
        simp [hnext]
      · rw [h3 k]
        simp [hnext]
    | some k₀ =>
      by_cases hseen : k₀ ∈ s.seen
      · have hnote : s.note next r = { s with fetched := s.fetched ++ [r] } := by
          simp [Fetch.note, hnext, hseen]
        rw [hnote]
        obtain ⟨h1, h2, h3⟩ := ih { s with fetched := s.fetched ++ [r] } hadded hrows
        refine ⟨by rw [h1, List.append_assoc]; rfl, fun k => ?_, fun k => ?_⟩
        · rw [h2 k]
          simp only [List.exists_mem_cons_iff, hnext, Option.some.injEq]
          constructor
          · exact fun h => h.imp_right Or.inr
          · rintro (h | rfl | h)
            · exact Or.inl h
            · exact Or.inl hseen
            · exact Or.inr h
        · rw [h3 k]
          simp only [List.exists_mem_cons_iff, hnext, Option.some.injEq]
          constructor
          · exact fun h => h.imp_right fun h => ⟨h.1, Or.inr h.2⟩
          · rintro (h | ⟨hnot, rfl | h⟩)
            · exact Or.inl h
            · exact absurd hseen hnot
            · exact Or.inr ⟨hnot, h⟩
      · have hnote : s.note next r =
            { fetched := s.fetched ++ [r], seen := s.seen ++ [k₀], layer := s.layer ++ [k₀] } := by
          have hlookup : ¬((lookupIn (s.fetched ++ [r]) k₀).isSome = true ∨ k₀ ∈ s.seen) := by
            rw [lookupIn_isSome]
            rintro (⟨q, hq, rfl⟩ | h)
            · exact hseen (hadded q hq)
            · exact hseen h
          simp only [Fetch.note, hnext]
          rw [if_neg hlookup]
        rw [hnote]
        obtain ⟨h1, h2, h3⟩ := ih
          { fetched := s.fetched ++ [r], seen := s.seen ++ [k₀], layer := s.layer ++ [k₀] }
          (fun q hq => List.mem_append_left _ (hadded q hq))
          (fun q hq => List.mem_append_left _ (hrows q hq))
        refine ⟨by rw [h1, List.append_assoc]; rfl, fun k => ?_, fun k => ?_⟩
        · rw [h2 k]
          simp only [List.mem_append, List.mem_singleton, List.exists_mem_cons_iff, hnext,
            Option.some.injEq]
          rw [or_assoc, eq_comm (a := k)]
        · rw [h3 k]
          simp only [List.mem_append, List.mem_singleton, List.exists_mem_cons_iff, hnext,
            Option.some.injEq, not_or]
          by_cases hk : k = k₀
          · simp [hk, hseen]
          · simp [hk, Ne.symm hk]

theorem length_layer_foldl_note (next : ρ → Option κ) (rows : List ρ) (s : Fetch ρ κ) :
    (rows.foldl (Fetch.note next) s).layer.length ≤ s.layer.length + rows.length := by
  induction rows generalizing s with
  | nil => exact Nat.le_refl _
  | cons r rows ih =>
    have hnote : (s.note next r).layer.length ≤ s.layer.length + 1 := by
      simp only [Fetch.note]
      split
      · exact Nat.le_succ _
      · split
        · exact Nat.le_succ _
        · simp
    have hrows := ih (s.note next r)
    rw [List.foldl_cons, List.length_cons]
    omega

/-- What holds of the rows read before each query. -/
structure FetchInv (next : ρ → Option κ) (t : Table ρ) (ks : List κ) (s : Fetch ρ κ) : Prop where
  seeds : ∀ k ∈ ks, k ∈ s.seen
  layer : ∀ k ∈ s.layer, k ∈ s.seen
  fromTable : ∀ r ∈ s.fetched, r ∈ t.rows
  fetched : ∀ r ∈ s.fetched, key r ∈ s.seen
  followed : ∀ r ∈ s.fetched, ∀ k, next r = some k → k ∈ s.seen
  fresh : ∀ r ∈ s.fetched, key r ∉ s.layer
  nodup : s.fetched.Nodup

omit [DecidableEq κ] in
theorem FetchInv.start : FetchInv next t ks ⟨[], ks, ks⟩ where
  seeds _ hk := hk
  layer _ hk := hk
  fromTable _ hr := absurd hr List.not_mem_nil
  fetched _ hr := absurd hr List.not_mem_nil
  followed _ hr := absurd hr List.not_mem_nil
  fresh _ hr := absurd hr List.not_mem_nil
  nodup := List.nodup_nil

/-- Every row asked for was read or is asked for in the next query, which it fits in. -/
structure FetchComplete (limit : Nat) (t : Table ρ) (s : Fetch ρ κ) : Prop where
  fits : s.layer.length ≤ limit
  rows : ∀ r ∈ t.rows, key r ∈ s.seen → key r ∈ s.layer ∨ r ∈ s.fetched

omit [DecidableEq κ] in
theorem FetchComplete.start (h : ks.length ≤ limit) : FetchComplete limit t ⟨[], ks, ks⟩ where
  fits := h
  rows _ _ hk := Or.inl hk

variable {s : Fetch ρ κ} {r : ρ}

theorem of_mem_asked (h : r ∈ asked limit t s) : r ∈ t.rows ∧ key r ∈ s.layer :=
  (List.mem_filter.mp (List.mem_of_mem_take h)).imp_right of_decide_eq_true

/-- A key names one row, so a layer has as many rows as keys at most. -/
theorem length_asking :
    (t.rows.filter fun r => decide (key r ∈ s.layer)).length ≤ s.layer.length := by
  have hnodup : ((t.rows.filter fun r => decide (key r ∈ s.layer)).map key).Nodup :=
    t.nodup.sublist (List.filter_sublist.map key)
  have hsubset : (t.rows.filter fun r => decide (key r ∈ s.layer)).map key ⊆ s.layer := by
    intro k hk
    obtain ⟨r, hr, rfl⟩ := List.mem_map.mp hk
    exact of_decide_eq_true (List.mem_filter.mp hr).2
  simpa using (List.subperm_of_subset hnodup hsubset).length_le

theorem FetchComplete.mem_asked (h : FetchComplete limit t s) :
    r ∈ asked limit t s ↔ r ∈ t.rows ∧ key r ∈ s.layer := by
  rw [asked, List.take_of_length_le (Nat.le_trans length_asking h.fits)]
  simp

theorem fetchLayer_spec (limit : Nat) (h : FetchInv next t ks s) :
    (fetchLayer next limit t s).fetched = s.fetched ++ asked limit t s ∧
      (∀ k, k ∈ (fetchLayer next limit t s).seen ↔
        k ∈ s.seen ∨ ∃ r ∈ asked limit t s, next r = some k) ∧
      ∀ k, k ∈ (fetchLayer next limit t s).layer ↔
        k ∉ s.seen ∧ ∃ r ∈ asked limit t s, next r = some k := by
  obtain ⟨h1, h2, h3⟩ := foldl_note next (asked limit t s) { s with layer := [] } h.fetched
    (fun r hr => h.layer _ (of_mem_asked hr).2)
  refine ⟨h1, h2, fun k => ?_⟩
  rw [fetchLayer, h3 k]
  simp

theorem FetchInv.step (h : FetchInv next t ks s) :
    FetchInv next t ks (fetchLayer next limit t s) := by
  obtain ⟨hfetched, hseen, hlayer⟩ := fetchLayer_spec limit h
  have hmem : ∀ r, r ∈ (fetchLayer next limit t s).fetched ↔ r ∈ s.fetched ∨ r ∈ asked limit t s := by
    intro r
    rw [hfetched, List.mem_append]
  constructor
  case seeds => exact fun k hk => (hseen k).mpr (Or.inl (h.seeds k hk))
  case layer => exact fun k hk => (hseen k).mpr (Or.inr ((hlayer k).mp hk).2)
  case fromTable =>
    exact fun r hr => ((hmem r).mp hr).elim (h.fromTable r) fun hr => (of_mem_asked hr).1
  case fetched =>
    exact fun r hr => (hseen _).mpr
      (Or.inl (((hmem r).mp hr).elim (h.fetched r) fun hr => h.layer _ (of_mem_asked hr).2))
  case followed =>
    intro r hr k hk
    rcases (hmem r).mp hr with hr | hr
    · exact (hseen k).mpr (Or.inl (h.followed r hr k hk))
    · exact (hseen k).mpr (Or.inr ⟨r, hr, hk⟩)
  case fresh =>
    intro r hr hlay
    have hnot := ((hlayer _).mp hlay).1
    rcases (hmem r).mp hr with hr | hr
    · exact hnot (h.fetched r hr)
    · exact hnot (h.layer _ (of_mem_asked hr).2)
  case nodup =>
    rw [hfetched]
    have hrows : (asked limit t s).Nodup :=
      ((List.Nodup.of_map _ t.nodup).filter _).sublist (List.take_sublist _ _)
    exact List.nodup_append'.mpr ⟨h.nodup, hrows, fun r hr hr' => h.fresh r hr (of_mem_asked hr').2⟩

theorem FetchComplete.step (hc : FetchComplete limit t s) (h : FetchInv next t ks s) :
    FetchComplete limit t (fetchLayer next limit t s) := by
  obtain ⟨hfetched, hseen, hlayer⟩ := fetchLayer_spec limit h
  constructor
  case fits =>
    have hnoted := length_layer_foldl_note next (asked limit t s) { s with layer := [] }
    have hasked : (asked limit t s).length ≤ limit := List.length_take_le _ _
    simp only [List.length_nil, Nat.zero_add] at hnoted
    exact Nat.le_trans hnoted hasked
  case rows =>
    intro r hr hk
    rw [hfetched, List.mem_append, hc.mem_asked]
    rcases (hseen _).mp hk with hold | hnew
    · rcases hc.rows r hr hold with hlay | hdone
      · exact Or.inr (Or.inr ⟨hr, hlay⟩)
      · exact Or.inr (Or.inl hdone)
    · by_cases hold : key r ∈ s.seen
      · rcases hc.rows r hr hold with hlay | hdone
        · exact Or.inr (Or.inr ⟨hr, hlay⟩)
        · exact Or.inr (Or.inl hdone)
      · exact Or.inl ((hlayer _).mpr ⟨hold, hnew⟩)

theorem FetchInv.layers (h : FetchInv next t ks s) (n : Nat) :
    FetchInv next t ks (fetchLayers next limit t n s) := by
  induction n generalizing s with
  | zero => exact h
  | succ n ih =>
    rw [fetchLayers]
    split
    · exact h
    · exact ih h.step

theorem FetchComplete.layers (hc : FetchComplete limit t s) (h : FetchInv next t ks s) (n : Nat) :
    FetchComplete limit t (fetchLayers next limit t n s) := by
  induction n generalizing s with
  | zero => exact hc
  | succ n ih =>
    rw [fetchLayers]
    split
    · exact hc
    · exact ih (hc.step h) h.step

theorem layer_fetchLayer_of_nil (h : FetchInv next t ks s) (hnone : asked limit t s = []) :
    (fetchLayer next limit t s).layer = [] := by
  rw [List.eq_nil_iff_forall_not_mem]
  intro k hk
  obtain ⟨_, r, hr, _⟩ := ((fetchLayer_spec _ h).2.2 k).mp hk
  rw [hnone] at hr
  exact List.not_mem_nil hr

theorem layer_fetchLayers (h : FetchInv next t ks s) {n : Nat}
    (hn : t.rows.length < n + s.fetched.length) : (fetchLayers next limit t n s).layer = [] := by
  induction n generalizing s with
  | zero =>
    have hle : s.fetched.length ≤ t.rows.length :=
      (List.subperm_of_subset h.nodup fun r hr => h.fromTable r hr).length_le
    omega
  | succ n ih =>
    rw [fetchLayers]
    split
    · rename_i hempty
      exact List.isEmpty_iff.mp hempty
    · by_cases hnone : asked limit t s = []
      · have hlast := layer_fetchLayer_of_nil h hnone
        cases n with
        | zero => exact hlast
        | succ n =>
          rw [fetchLayers, if_pos (List.isEmpty_iff.mpr hlast)]
          exact hlast
      · refine ih h.step ?_
        have hread := List.length_pos_iff.mpr hnone
        rw [(fetchLayer_spec _ h).1, List.length_append]
        omega

/-- The row of a key among those read is the row of the table, or was left out of an answer. -/
theorem lookupIn_fetchAll (h : lookupIn (fetchAll next limit t ks) k = some r) :
    t.get? k = some r := by
  have hinv : FetchInv next t ks (fetchLayers next limit t (t.rows.length + 1) ⟨[], ks, ks⟩) :=
    FetchInv.start.layers _
  have hkey : key r = k := by simpa using List.find?_some h
  exact Table.get?_eq_some.mpr ⟨hinv.fromTable r (List.mem_of_find?_eq_some h), hkey⟩

/-- The walks on the rows read, when the first query fits in an answer. -/
theorem walk_fetchAll (next : ρ → Option κ) (t : Table ρ) (hfits : ks.length ≤ limit)
    (hk : k ∈ ks) (n : Nat) :
    walk (lookupIn (fetchAll next limit t ks)) next n (some k) = walk t.get? next n (some k) := by
  have hinv : FetchInv next t ks (fetchLayers next limit t (t.rows.length + 1) ⟨[], ks, ks⟩) :=
    FetchInv.start.layers _
  have hcomplete : FetchComplete limit t
      (fetchLayers next limit t (t.rows.length + 1) ⟨[], ks, ks⟩) :=
    (FetchComplete.start hfits).layers FetchInv.start _
  have hempty : (fetchLayers next limit t (t.rows.length + 1) ⟨[], ks, ks⟩).layer = [] :=
    layer_fetchLayers FetchInv.start (by simp)
  have hlookup : ∀ k ∈ (fetchLayers next limit t (t.rows.length + 1) ⟨[], ks, ks⟩).seen,
      lookupIn (fetchAll next limit t ks) k = t.get? k := by
    intro k hseen
    cases hfind : lookupIn (fetchAll next limit t ks) k with
    | some r => exact (lookupIn_fetchAll hfind).symm
    | none =>
      refine (Table.get?_eq_none.mpr fun r hr heq => ?_).symm
      have hread : r ∈ fetchAll next limit t ks := by
        rcases hcomplete.rows r hr (heq ▸ hseen) with hlay | hdone
        · rw [hempty] at hlay
          exact absurd hlay List.not_mem_nil
        · exact hdone
      have hnot := List.find?_eq_none.mp hfind r hread
      simp [heq] at hnot
  refine walk_congr hlookup (fun k hseen r hrow k' hnext => ?_) (hinv.seeds k hk) n
  exact hinv.followed r (List.mem_of_find?_eq_some hrow) k' hnext

end Prequest.Lib
