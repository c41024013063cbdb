import Prequest.Lib.Table

/-!
# Patches for the rows of a table

A list of patches is computed from some rows of a table, at most one for each,
and then applied by one `UPDATE` for each patch. An update finds its row by the
key, and by a condition on the row that no patch changes.

* `applyPatches_rows`: each row meets the patches that are for it.
* `Patches.rows`, `Patches.filter_live`: where the patches were made from rows, each meets its own.
-/

namespace Prequest.Lib

universe u v w

variable {ρ : Type u} {κ : Type v} [Keyed ρ κ] {π : Type w} {t : Table ρ}

/-- One `UPDATE` for each patch, in order. -/
def applyPatches (target : π → ρ → Bool) (assign : π → Table.Assignment ρ) (t : Table ρ)
    (patches : List π) : Table ρ :=
  patches.foldl (fun t p => t.update (target p) (assign p)) t

theorem applyPatches_rows {target : π → ρ → Bool} {assign : π → Table.Assignment ρ}
    (hstable : ∀ p q r, target q ((assign p).apply r) = target q r)
    (t : Table ρ) (patches : List π) :
    (applyPatches target assign t patches).rows = t.rows.map fun r =>
      (patches.filter fun p => target p r).foldl (fun r p => (assign p).apply r) r := by
  induction patches generalizing t with
  | nil => exact (List.map_id _).symm
  | cons p patches ih =>
    show (applyPatches target assign (t.update (target p) (assign p)) patches).rows = _
    rw [ih, show (t.update (target p) (assign p)).rows =
      t.rows.map (Table.updated (target p) (assign p)) from rfl, List.map_map]
    refine List.map_congr_left fun r _ => ?_
    cases hp : target p r with
    | true =>
      rw [Function.comp_apply, Table.updated_of_true hp,
        List.filter_cons_of_pos (p := fun p => target p r) hp]
      simp only [hstable]
      rfl
    | false =>
      rw [Function.comp_apply, Table.updated_of_false hp,
        List.filter_cons_of_neg (p := fun p => target p r) (by rw [hp]; exact Bool.false_ne_true)]

theorem Table.filter_key [DecidableEq κ] {r : ρ} (hr : r ∈ t.rows) :
    (t.rows.filter fun s => decide (key s = key r)) = [r] := by
  have hnodup : (t.rows.filter fun s => decide (key s = key r)).Nodup :=
    (List.Nodup.of_map key t.nodup).filter _
  refine List.perm_singleton.mp ((List.perm_ext_iff_of_nodup hnodup (List.nodup_singleton r)).mpr ?_)
  intro s
  rw [List.mem_filter, List.mem_singleton, decide_eq_true_eq]
  constructor
  · rintro ⟨hs, hkey⟩
    exact t.eq_of_key_eq hs hr hkey
  · rintro rfl
    exact ⟨hr, rfl⟩

/-- The patches of a command: which rows they are made from, and how they find and change them. -/
structure Patches (ρ : Type u) {κ : Type v} [Keyed ρ κ] [DecidableEq κ] (π : Type w) where
  /-- The condition of the updates besides the key. -/
  owned : ρ → Bool
  /-- The rows that are read for the patches. -/
  live : ρ → Bool
  make : ρ → Option π
  patchKey : π → κ
  assign : π → Table.Assignment ρ
  owned_of_live : ∀ r, live r = true → owned r = true
  owned_assign : ∀ p r, owned ((assign p).apply r) = owned r
  live_assign : ∀ p r, live ((assign p).apply r) = live r
  patchKey_make : ∀ r p, make r = some p → patchKey p = key r

namespace Patches

variable [DecidableEq κ] (c : Patches ρ π)

def target (p : π) (r : ρ) : Bool := decide (key r = c.patchKey p) && c.owned r

/-- The row after its own patch. -/
def moved (r : ρ) : ρ :=
  if c.live r then ((c.make r).map fun p => (c.assign p).apply r).getD r else r

theorem target_assign (p q : π) (r : ρ) : c.target q ((c.assign p).apply r) = c.target q r := by
  unfold target
  rw [Table.Assignment.key_apply, c.owned_assign]

theorem rows {patches : List π}
    (hpatches : patches.Perm ((t.rows.filter c.live).filterMap c.make)) :
    (applyPatches c.target c.assign t patches).rows = t.rows.map c.moved := by
  rw [applyPatches_rows c.target_assign]
  refine List.map_congr_left fun r hr => ?_
  have hown : (patches.filter fun p => c.target p r).Perm
      (if c.live r then (c.make r).toList else []) := by
    refine (hpatches.filter _).trans ?_
    rw [List.filter_filterMap]
    have hcongr : ((t.rows.filter c.live).filterMap fun s =>
        (c.make s).filter fun p => c.target p r) =
        ((t.rows.filter c.live).filter fun s => decide (key s = key r)).filterMap fun s =>
          (c.make s).filter fun p => c.target p r := by
      generalize t.rows.filter c.live = rows
      rw [List.filterMap_filter]
      refine List.filterMap_congr fun s _ => ?_
      by_cases hkey : key s = key r
      · rw [if_pos (decide_eq_true hkey)]
      · rw [if_neg (by rw [decide_eq_true_eq]; exact hkey)]
        cases hmake : c.make s with
        | none => rfl
        | some p =>
          have hp := c.patchKey_make s p hmake
          simp [Option.filter, target, hp, Ne.symm hkey]
    rw [hcongr, List.filter_comm, Table.filter_key hr]
    cases hlive : c.live r with
    | false => simp [hlive]
    | true =>
      rw [List.filter_cons_of_pos hlive, List.filter_nil, if_pos rfl]
      cases hmake : c.make r with
      | none => simp [hmake]
      | some p =>
        have hp := c.patchKey_make r p hmake
        simp [hmake, Option.filter, target, hp, c.owned_of_live r hlive]
  unfold moved
  cases hlive : c.live r with
  | false =>
    rw [hlive, if_neg Bool.false_ne_true] at hown
    rw [List.perm_nil.mp hown, if_neg Bool.false_ne_true]
    rfl
  | true =>
    rw [hlive, if_pos rfl] at hown
    rw [if_pos rfl]
    cases hmake : c.make r with
    | none =>
      rw [hmake, Option.toList_none] at hown
      rw [List.perm_nil.mp hown]
      rfl
    | some p =>
      rw [hmake, Option.toList_some] at hown
      rw [List.perm_singleton.mp hown]
      rfl

theorem live_moved (r : ρ) : c.live (c.moved r) = c.live r := by
  unfold moved
  split
  · cases c.make r with
    | none => rfl
    | some p => exact c.live_assign p r
  · rfl

theorem filter_live {patches : List π}
    (hpatches : patches.Perm ((t.rows.filter c.live).filterMap c.make)) :
    (applyPatches c.target c.assign t patches).rows.filter c.live =
      (t.rows.filter c.live).map c.moved := by
  rw [c.rows hpatches, List.filter_map]
  congr 1
  refine List.filter_congr fun r _ => ?_
  exact c.live_moved r

theorem filter_other (patches : List π) {q : ρ → Bool} (hq : ∀ r, q r = true → c.owned r = false)
    (hkept : ∀ p r, c.owned r = true → q ((c.assign p).apply r) = false) :
    (applyPatches c.target c.assign t patches).rows.filter q = t.rows.filter q := by
  have hskip : ∀ {r p}, c.owned r = false → Table.updated (c.target p) (c.assign p) r = r := by
    intro r p howned
    exact Table.updated_of_false (by rw [target, howned, Bool.and_false])
  induction patches generalizing t with
  | nil => rfl
  | cons p patches ih =>
    show (applyPatches c.target c.assign (t.update (c.target p) (c.assign p)) patches).rows.filter q
      = _
    rw [ih, show (t.update (c.target p) (c.assign p)).rows =
      t.rows.map (Table.updated (c.target p) (c.assign p)) from rfl, List.filter_map]
    have hsame : ∀ r, (q ∘ Table.updated (c.target p) (c.assign p)) r = q r := by
      intro r
      rw [Function.comp_apply]
      cases howned : c.owned r with
      | false => rw [hskip howned]
      | true =>
        have hr : q r = false := by
          rw [Bool.eq_false_iff]
          intro hqr
          rw [hq r hqr] at howned
          cases howned
        unfold Table.updated
        split
        · rw [hkept p r howned, hr]
        · rfl
    rw [show (q ∘ Table.updated (c.target p) (c.assign p)) = q from funext hsame]
    refine (List.map_congr_left fun r hr => ?_).trans (List.map_id _)
    exact hskip (hq r (List.mem_filter.mp hr).2)

end Patches

end Prequest.Lib
