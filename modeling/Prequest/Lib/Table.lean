import Mathlib.Data.List.Nodup
import Mathlib.Data.List.Count

/-!
# Keyed tables

A relational table is a list of rows whose primary keys do not repeat. The key
constraint is a field of the structure, so no statement that follows can reach
a table with two rows of one key.

Five statements are provided, after the SQL commands they stand for: `get?`
(a lookup by primary key), `update` (`UPDATE … WHERE`), `delete`, `insert?` (an
`INSERT` that reports a unique violation) and `put` (`INSERT … ON CONFLICT DO
NOTHING`), with `putAll` for a list of rows.
The lemmas after each one say what it does to membership and to lookups; proofs
about a program use these and do not open the row list again.
-/

namespace Prequest.Lib

universe u v

/-- Rows of type `ρ` carry a primary key of type `κ`. -/
class Keyed (ρ : Type u) (κ : outParam (Type v)) where
  /-- The primary key of a row. -/
  key : ρ → κ

export Keyed (key)

/-- A list of rows without repeated primary keys. -/
structure Table (ρ : Type u) {κ : Type v} [Keyed ρ κ] where
  rows : List ρ
  nodup : (rows.map key).Nodup

namespace Table

variable {ρ : Type u} {κ : Type v} [Keyed ρ κ] {t : Table ρ} {r s : ρ} {k : κ} {p : ρ → Bool}

@[ext] theorem ext {t s : Table ρ} (h : t.rows = s.rows) : t = s := by
  cases t
  cases s
  simpa using h

instance [DecidableEq ρ] : DecidableEq (Table ρ) := fun t s =>
  decidable_of_iff (t.rows = s.rows) ⟨ext, congrArg rows⟩

/-- The table without rows. -/
def empty : Table ρ := ⟨[], List.nodup_nil⟩

theorem eq_of_key_eq (t : Table ρ) (hr : r ∈ t.rows) (hs : s ∈ t.rows) (h : key r = key s) :
    r = s :=
  List.inj_on_of_nodup_map t.nodup hr hs h

/-! ## Lookup -/

section Lookup

variable [DecidableEq κ]

/-- The row with primary key `k`. -/
def get? (t : Table ρ) (k : κ) : Option ρ :=
  t.rows.find? fun r => decide (key r = k)

theorem get?_eq_some : t.get? k = some r ↔ r ∈ t.rows ∧ key r = k := by
  constructor
  · intro h
    exact ⟨List.mem_of_find?_eq_some h, by simpa using List.find?_some h⟩
  · rintro ⟨hmem, hkey⟩
    cases hfind : t.get? k with
    | none =>
      have hnone := List.find?_eq_none.mp hfind r hmem
      simp [hkey] at hnone
    | some s =>
      have hs : s ∈ t.rows := List.mem_of_find?_eq_some hfind
      have hk : key s = k := by simpa using List.find?_some hfind
      rw [t.eq_of_key_eq hs hmem (hk.trans hkey.symm)]

theorem get?_eq_none : t.get? k = none ↔ ∀ r ∈ t.rows, key r ≠ k := by
  simp [get?, List.find?_eq_none]

theorem get?_of_mem (hr : r ∈ t.rows) : t.get? (key r) = some r :=
  get?_eq_some.mpr ⟨hr, rfl⟩

end Lookup

/-! ## Update -/

/-- The `SET` clause of an update. The primary key is not among the assigned columns. -/
structure Assignment (ρ : Type u) {κ : Type v} [Keyed ρ κ] where
  apply : ρ → ρ
  key_apply : ∀ r, key (apply r) = key r

attribute [simp] Assignment.key_apply

/-- The row after `UPDATE … SET f WHERE p`. -/
def updated (p : ρ → Bool) (f : Assignment ρ) (r : ρ) : ρ := if p r then f.apply r else r

theorem updated_of_true {f : Assignment ρ} (h : p r = true) : updated p f r = f.apply r := if_pos h

theorem updated_of_false {f : Assignment ρ} (h : p r = false) : updated p f r = r := by
  simp [updated, h]

@[simp] theorem key_updated (p : ρ → Bool) (f : Assignment ρ) (r : ρ) :
    key (updated p f r) = key r := by
  unfold updated
  split
  · exact f.key_apply r
  · rfl

/-- `UPDATE … SET f WHERE p`. -/
def update (t : Table ρ) (p : ρ → Bool) (f : Assignment ρ) : Table ρ where
  rows := t.rows.map (updated p f)
  nodup := by
    have hkeys : (t.rows.map (updated p f)).map key = t.rows.map key := by
      rw [List.map_map]
      apply List.map_congr_left
      intro r _
      exact key_updated p f r
    rw [hkeys]
    exact t.nodup

section Update

variable {p : ρ → Bool} {f : Assignment ρ}

theorem mem_update {r' : ρ} : r' ∈ (t.update p f).rows ↔ ∃ r ∈ t.rows, updated p f r = r' :=
  List.mem_map

theorem mem_update_iff {r' : ρ} :
    r' ∈ (t.update p f).rows ↔
      ∃ r ∈ t.rows, (p r = true ∧ r' = f.apply r) ∨ (¬p r = true ∧ r' = r) := by
  refine mem_update.trans (exists_congr fun r => and_congr_right fun _ => ?_)
  by_cases hp : p r = true
  · rw [updated_of_true hp]
    simp [hp, eq_comm]
  · rw [updated_of_false (Bool.eq_false_iff.mpr hp)]
    simp [hp, eq_comm]

theorem get?_update [DecidableEq κ] (t : Table ρ) (k : κ) :
    (t.update p f).get? k = (t.get? k).map (updated p f) := by
  cases hget : t.get? k with
  | none =>
    rw [get?_eq_none] at hget
    simp only [Option.map_none, get?_eq_none]
    intro r' hr'
    obtain ⟨r, hr, rfl⟩ := mem_update.mp hr'
    rw [key_updated]
    exact hget r hr
  | some r =>
    obtain ⟨hr, rfl⟩ := get?_eq_some.mp hget
    exact get?_eq_some.mpr ⟨mem_update.mpr ⟨r, hr, rfl⟩, key_updated p f r⟩

theorem update_eq_self (h : ∀ r ∈ t.rows, p r = false) : t.update p f = t := by
  apply ext
  calc t.rows.map (updated p f)
      = t.rows.map id := List.map_congr_left fun r hr => updated_of_false (h r hr)
    _ = t.rows := List.map_id _

theorem update_congr {q : ρ → Bool} (h : ∀ r ∈ t.rows, p r = q r) :
    t.update p f = t.update q f := by
  apply ext
  refine List.map_congr_left fun r hr => ?_
  unfold updated
  rw [h r hr]

theorem update_update {q r : ρ → Bool} (hidem : ∀ s, f.apply (f.apply s) = f.apply s)
    (hqr : ∀ s ∈ t.rows, p s = false → q s = r s) :
    (t.update p f).update q f = t.update (fun s => p s || r s) f := by
  apply ext
  show (t.rows.map (updated p f)).map (updated q f) = t.rows.map (updated (fun s => p s || r s) f)
  rw [List.map_map]
  refine List.map_congr_left fun s hs => ?_
  show updated q f (updated p f s) = updated (fun s => p s || r s) f s
  cases hp : p s with
  | true =>
    rw [updated_of_true hp, updated_of_true (p := fun s => p s || r s) (by rw [hp, Bool.true_or])]
    unfold updated
    split
    · exact hidem s
    · rfl
  | false =>
    rw [updated_of_false hp]
    unfold updated
    simp only [hp, Bool.false_or, hqr s hs hp]

/-- The row with this key has the property. -/
def Has (t : Table ρ) (k : κ) (q : ρ → Prop) : Prop := ∃ r ∈ t.rows, key r = k ∧ q r

theorem Has.of_mem {q : ρ → Prop} (h : t.Has (key r) q) (hr : r ∈ t.rows) : q r := by
  obtain ⟨s, hs, hkey, hq⟩ := h
  rwa [t.eq_of_key_eq hs hr hkey] at hq

theorem has_update_iff {q : ρ → Prop} (hends : ∀ r, ¬q (f.apply r)) :
    (t.update p f).Has k q ↔ t.Has k q ∧ ¬t.Has k fun r => p r = true := by
  constructor
  · rintro ⟨r', hr', rfl, hq⟩
    obtain ⟨r, hr, ⟨_, rfl⟩ | ⟨hp, rfl⟩⟩ := mem_update_iff.mp hr'
    · exact absurd hq (hends r)
    · exact ⟨⟨r', hr, rfl, hq⟩, fun h => hp (h.of_mem hr)⟩
  · rintro ⟨⟨r, hr, rfl, hq⟩, hnot⟩
    have hp : ¬p r = true := fun hp => hnot ⟨r, hr, rfl, hp⟩
    exact ⟨r, mem_update_iff.mpr ⟨r, hr, .inr ⟨hp, rfl⟩⟩, rfl, hq⟩

end Update

/-! ## Delete -/

/-- `DELETE … WHERE p`. -/
def delete (t : Table ρ) (p : ρ → Bool) : Table ρ where
  rows := t.rows.filter fun r => !p r
  nodup := t.nodup.sublist (List.filter_sublist.map key)

theorem mem_delete : r ∈ (t.delete p).rows ↔ r ∈ t.rows ∧ p r = false := by
  simp [delete]

/-! ## Insert -/

section Insert

variable [DecidableEq κ] {rs : List ρ}

/-- `INSERT`, or `none` on a violation of the primary key. -/
def insert? (t : Table ρ) (r : ρ) : Option (Table ρ) :=
  if h : key r ∈ t.rows.map key then none
  else some ⟨t.rows ++ [r], by
    rw [List.map_append]
    exact List.nodup_append.mpr ⟨t.nodup, by simp, by
      intro k hk k' hk' heq
      simp only [List.map_cons, List.map_nil, List.mem_singleton] at hk'
      exact h (by rw [← hk', ← heq]; exact hk)⟩⟩

/-- `INSERT … ON CONFLICT DO NOTHING`. -/
def put (t : Table ρ) (r : ρ) : Table ρ := (t.insert? r).getD t

theorem insert?_eq_some {t t' : Table ρ} (h : t.insert? r = some t') :
    t'.rows = t.rows ++ [r] ∧ t.get? (key r) = none := by
  unfold insert? at h
  split at h
  · cases h
  · rename_i hfresh
    cases h
    refine ⟨rfl, get?_eq_none.mpr ?_⟩
    intro s hs heq
    exact hfresh (List.mem_map.mpr ⟨s, hs, heq⟩)

theorem insert?_of_fresh (h : t.get? (key r) = none) :
    ∃ t', t.insert? r = some t' ∧ t'.rows = t.rows ++ [r] := by
  have hfresh : key r ∉ t.rows.map key := by
    intro hmem
    obtain ⟨s, hs, hkey⟩ := List.mem_map.mp hmem
    exact get?_eq_none.mp h s hs hkey
  exact ⟨_, dif_neg hfresh, rfl⟩

theorem insert?_congr {t s : Table ρ} {r q : ρ} (hkeys : t.rows.map key = s.rows.map key)
    (hkey : key r = key q) :
    (t.insert? r = none ∧ s.insert? q = none) ∨
      ∃ t' s', t.insert? r = some t' ∧ s.insert? q = some s' ∧
        t'.rows = t.rows ++ [r] ∧ s'.rows = s.rows ++ [q] := by
  by_cases h : key r ∈ t.rows.map key
  · have h' : key q ∈ s.rows.map key := by rwa [← hkeys, ← hkey]
    exact .inl ⟨dif_pos h, dif_pos h'⟩
  · have h' : key q ∉ s.rows.map key := by rwa [← hkeys, ← hkey]
    exact .inr ⟨_, _, dif_neg h, dif_neg h', rfl, rfl⟩

theorem put_of_present (h : t.get? (key r) = some s) : t.put r = t := by
  have hmem : key r ∈ t.rows.map key := by
    obtain ⟨hs, hkey⟩ := get?_eq_some.mp h
    exact List.mem_map.mpr ⟨s, hs, hkey⟩
  simp only [put, insert?, dif_pos hmem, Option.getD_none]

theorem put_of_fresh (h : t.get? (key r) = none) : (t.put r).rows = t.rows ++ [r] := by
  obtain ⟨t', hins, hrows⟩ := insert?_of_fresh h
  simp only [put, hins, Option.getD_some, hrows]

theorem mem_put (h : t.get? (key r) = none) : s ∈ (t.put r).rows ↔ s ∈ t.rows ∨ s = r := by
  rw [put_of_fresh h, List.mem_append, List.mem_singleton]

theorem get?_put (h : t.get? (key r) = none) (k : κ) :
    (t.put r).get? k = if k = key r then some r else t.get? k := by
  by_cases hk : k = key r
  · rw [if_pos hk]
    exact get?_eq_some.mpr ⟨(mem_put h).mpr (.inr rfl), hk.symm⟩
  · rw [if_neg hk]
    rcases Option.eq_none_or_eq_some (t.get? k) with hget | ⟨s, hget⟩
    · rw [hget, get?_eq_none]
      intro s hs hsk
      rcases (mem_put h).mp hs with hold | rfl
      · exact get?_eq_none.mp hget s hold hsk
      · exact hk hsk.symm
    · obtain ⟨hs, hsk⟩ := get?_eq_some.mp hget
      rw [hget]
      exact get?_eq_some.mpr ⟨(mem_put h).mpr (.inl hs), hsk⟩

theorem get?_put_of_some (h : t.get? k = some s) : (t.put r).get? k = some s := by
  cases hfresh : t.get? (key r) with
  | some u => rwa [put_of_present hfresh]
  | none =>
    rw [get?_put hfresh, if_neg, h]
    rintro rfl
    rw [hfresh] at h
    cases h

/-- `INSERT … SELECT … ON CONFLICT DO NOTHING`. -/
def putAll (t : Table ρ) (rs : List ρ) : Table ρ := rs.foldl put t

theorem get?_putAll_of_some {s : ρ} (h : t.get? k = some s) : (t.putAll rs).get? k = some s := by
  induction rs generalizing t with
  | nil => exact h
  | cons r rs ih => exact ih (get?_put_of_some h)

theorem mem_of_get?_putAll {s : ρ} (h : (t.putAll rs).get? k = some s) :
    t.get? k = some s ∨ s ∈ rs := by
  induction rs generalizing t with
  | nil => exact .inl h
  | cons r rs ih =>
    rcases ih h with hput | hs
    · cases hfresh : t.get? (key r) with
      | some u =>
        rw [put_of_present hfresh] at hput
        exact .inl hput
      | none =>
        rw [get?_put hfresh] at hput
        split at hput
        · exact .inr (List.mem_cons.mpr (.inl (Option.some.inj hput).symm))
        · exact .inl hput
    · exact .inr (List.mem_cons_of_mem r hs)

theorem get?_putAll_of_mem (h : r ∈ rs) : ∃ s, (t.putAll rs).get? (key r) = some s := by
  induction rs generalizing t with
  | nil => cases h
  | cons q rs ih =>
    rcases List.mem_cons.mp h with rfl | hmem
    · have hput : ∃ s, (t.put r).get? (key r) = some s := by
        cases hfresh : t.get? (key r) with
        | some s => exact ⟨s, get?_put_of_some hfresh⟩
        | none => exact ⟨r, by rw [get?_put hfresh, if_pos rfl]⟩
      obtain ⟨s, hs⟩ := hput
      exact ⟨s, get?_putAll_of_some (t := t.put r) hs⟩
    · exact ih hmem

end Insert

/-! ## Rows written by a transaction -/

section Write

variable [DecidableEq κ]

/-- All columns of a row are assigned. -/
def replaceWith (r : ρ) : Assignment ρ where
  apply s := if key s = key r then r else s
  key_apply s := by
    split_ifs with h
    · exact h.symm
    · rfl

/-- The row takes the place of the one with its key, or is added. -/
def write (t : Table ρ) (r : ρ) : Table ρ :=
  (t.update (fun s => decide (key s = key r)) (replaceWith r)).put r

theorem get?_write (t : Table ρ) (r : ρ) (k : κ) :
    (t.write r).get? k = if k = key r then some r else t.get? k := by
  unfold write
  cases hget : t.get? (key r) with
  | none =>
    have hfresh : ∀ s ∈ t.rows, decide (key s = key r) = false := by
      intro s hs
      exact decide_eq_false (get?_eq_none.mp hget s hs)
    rw [update_eq_self hfresh]
    exact get?_put hget k
  | some s =>
    have hpresent : (t.update (fun s => decide (key s = key r)) (replaceWith r)).get? (key r) =
        some r := by
      rw [get?_update, hget, Option.map_some]
      have hkey : key s = key r := (get?_eq_some.mp hget).2
      simp [updated, replaceWith, hkey]
    rw [put_of_present hpresent, get?_update]
    by_cases hk : k = key r
    · rw [if_pos hk, hk, ← get?_update]
      exact hpresent
    · rw [if_neg hk]
      cases hk' : t.get? k with
      | none => rfl
      | some x =>
        have hx : ¬key x = key r := by
          rw [(get?_eq_some.mp hk').2]
          exact hk
        simp [updated, hx]

/-- The table with the rows of `ws` written, the last of them first. -/
def overlay (ws : List ρ) (t : Table ρ) : Table ρ := ws.foldr (fun r t => t.write r) t

@[simp] theorem overlay_nil (t : Table ρ) : overlay [] t = t := rfl

@[simp] theorem overlay_cons (r : ρ) (ws : List ρ) (t : Table ρ) :
    overlay (r :: ws) t = (overlay ws t).write r := rfl

theorem get?_overlay (ws : List ρ) (t : Table ρ) (k : κ) :
    (overlay ws t).get? k = (ws.find? fun r => decide (key r = k)).or (t.get? k) := by
  induction ws with
  | nil => rfl
  | cons r ws ih =>
    rw [overlay_cons, get?_write, ih, List.find?_cons]
    by_cases hk : k = key r
    · rw [if_pos hk, decide_eq_true hk.symm]
      rfl
    · rw [if_neg hk, decide_eq_false (Ne.symm hk)]

end Write

end Table

end Prequest.Lib
