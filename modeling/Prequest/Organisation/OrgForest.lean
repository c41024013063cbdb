import Prequest.Organisation.OrgNodes

/-!
# Organisations as forests

The trigger sees the chain above a node and not what is below it. A change that it lets
through leaves the tree of the tenant without a cycle. It keeps the tree within its
depth when what is below the node has room under the new parent, which the trigger does
not ask.

* `sound_of_forest`: the other way round.
-/

namespace Prequest.Organisation

open Prequest.Lib Prequest.Lib.ReadCommitted

/-! ## The tree of one tenant -/

/-- Parents are nodes of the tenant, chains end, and within the limit if that is asked for. -/
structure TenantForest (bounded : Prop) (nodes : List OrgNode) : Prop where
  closed : Closed nodes
  ends : Ends (parentOf nodes)
  within : bounded → Within (parentOf nodes) maxDepth

section

variable {nodes : List OrgNode} {c : RowChange} {bounded : Prop}

theorem parentOf_applyChange (hof : ∀ r ∈ nodes, r.tenantId = c.new.tenantId)
    (htarget : c.inserts = true ↔ ¬Known nodes c.new.id) :
    parentOf (applyChange nodes c) =
      Function.update (parentOf nodes) c.new.id c.new.parentId := by
  funext a
  unfold parentOf lookup applyChange
  cases hinserts : c.inserts with
  | true =>
    have hnew := lookup_eq_none.mpr (htarget.mp hinserts)
    rw [if_pos rfl, List.find?_append]
    by_cases ha : a = c.new.id
    · subst ha
      rw [show nodes.find? (fun r => r.id == c.new.id) = none from hnew, Function.update_self]
      simp
    · have hlast : [c.new].find? (fun r => r.id == a) = none := by
        simpa using fun h => ha h.symm
      rw [hlast, Option.or_none, Function.update_of_ne ha]
  | false =>
    have hid : ∀ r : OrgNode, (if r.id = c.new.id ∧ r.tenantId = c.new.tenantId then
        { r with parentId := c.new.parentId } else r).id = r.id := by
      intro r
      split <;> rfl
    simp only [Bool.false_eq_true, if_false, List.find?_map, Function.comp_def, hid]
    by_cases ha : a = c.new.id
    · subst ha
      have hknown : Known nodes c.new.id := by
        by_contra hno
        rw [htarget.mpr hno] at hinserts
        cases hinserts
      rw [Function.update_self]
      cases hfind : nodes.find? fun r => r.id == c.new.id with
      | none => exact absurd hknown (lookup_eq_none.mp hfind)
      | some r =>
        obtain ⟨hr, hrid⟩ := mem_of_lookup hfind
        rw [Option.map_some, if_pos ⟨hrid, hof r hr⟩]
        rfl
    · rw [Function.update_of_ne ha]
      cases hfind : nodes.find? fun r => r.id == a with
      | none => rfl
      | some r =>
        have hrid := (mem_of_lookup hfind).2
        rw [Option.map_some, if_neg fun h => ha (hrid.symm.trans h.1)]

variable {id : Nat}

theorem known_iff_key {rows : List OrgNode} :
    Known rows id ↔ ∃ key ∈ rows.map OrgNode.key, key.1 = id := by
  constructor
  · rintro ⟨r, hr, hid⟩
    exact ⟨r.key, List.mem_map_of_mem hr, hid⟩
  · rintro ⟨_, hkey, hid⟩
    obtain ⟨r, hr, rfl⟩ := List.mem_map.mp hkey
    exact ⟨r, hr, hid⟩

theorem Known.applyChange (h : Known nodes id) : Known (applyChange nodes c) id := by
  obtain ⟨key, hkey, hid⟩ := known_iff_key.mp h
  refine known_iff_key.mpr ⟨key, ?_, hid⟩
  rw [keys_applyChange]
  exact List.mem_append_left _ hkey

theorem Closed.applyChange (h : Closed nodes)
    (hparent : ∀ p, c.new.parentId = some p → Known nodes p) : Closed (applyChange nodes c) := by
  intro r hr p hp
  have hknown : Known nodes p := by
    unfold Organisation.applyChange at hr
    split at hr
    · rcases List.mem_append.mp hr with hr | hr
      · exact h r hr p hp
      · rw [List.mem_singleton.mp hr] at hp
        exact hparent p hp
    · obtain ⟨s, hs, rfl⟩ := List.mem_map.mp hr
      split at hp
      · exact hparent p hp
      · exact h s hs p hp
  exact hknown.applyChange

/-- A parent whose chain the walk has found to be clear of the node, and short. -/
structure Clear (nodes : List OrgNode) (id : Nat) (k : Option Nat) : Prop where
  avoids : ∀ e, up (parentOf nodes) e k ≠ some id
  short : up (parentOf nodes) (maxDepth - 1) k = none

/-- Every node below the one that is moved keeps within the limit. -/
def SubtreeFits (nodes : List OrgNode) (id : Nat) (k : Option Nat) : Prop :=
  ∀ a d, up (parentOf nodes) d (some a) = some id →
    up (parentOf nodes) (maxDepth - (d + 1)) k = none

theorem SubtreeFits.of_leaf {k : Option Nat} (hleaf : ∀ r ∈ nodes, r.parentId ≠ some id)
    (hshort : up (parentOf nodes) (maxDepth - 1) k = none) : SubtreeFits nodes id k := by
  intro a d hd
  cases d with
  | zero => exact hshort
  | succ d =>
    rw [up_succ] at hd
    obtain ⟨b, _, hb⟩ := Option.bind_eq_some_iff.mp hd
    obtain ⟨r, hr, hp⟩ := Option.bind_eq_some_iff.mp hb
    exact absurd hp (hleaf r (mem_of_lookup hr).1)

theorem TenantForest.applyChange (h : TenantForest bounded nodes)
    (hof : ∀ r ∈ nodes, r.tenantId = c.new.tenantId)
    (htarget : c.inserts = true ↔ ¬Known nodes c.new.id)
    (hparent : ∀ p, c.new.parentId = some p → Known nodes p)
    (hclear : Clear nodes c.new.id c.new.parentId)
    (hfits : bounded → c.inserts = false → SubtreeFits nodes c.new.id c.new.parentId) :
    TenantForest bounded (applyChange nodes c) := by
  refine ⟨h.closed.applyChange hparent, ?_, fun hbounded => ?_⟩
  · rw [parentOf_applyChange hof htarget]
    exact h.ends.update hclear.avoids
  · rw [parentOf_applyChange hof htarget]
    refine (h.within hbounded).update_iff.mpr ⟨hclear.avoids, ?_⟩
    cases hinserts : c.inserts with
    | false => exact hfits hbounded hinserts
    | true =>
      -- Nothing is below a node that is new.
      have hnew := htarget.mp hinserts
      exact SubtreeFits.of_leaf (fun r hr hp => hnew (h.closed r hr _ hp)) hclear.short

end

structure Sound (bounded : Prop) (rows : List OrgNode) : Prop where
  ids : (rows.map OrgNode.id).Nodup
  tenants : ∀ tenantId, TenantForest bounded (nodesOf tenantId rows)

section

variable {rows : List OrgNode} {bounded : Prop}

theorem known_nodesOf {id : Nat} (h : Known rows id) :
    ∃ tenantId, Known (nodesOf tenantId rows) id := by
  obtain ⟨r, hr, hid⟩ := h
  exact ⟨r.tenantId, r, mem_nodesOf.mpr ⟨hr, rfl⟩, hid⟩

theorem within_of_known {n : Nat} (hn : 0 < n)
    (h : ∀ r ∈ rows, up (parentOf rows) n (some r.id) = none) : Within (parentOf rows) n := by
  intro a
  by_cases hknown : Known rows a
  · obtain ⟨r, hr, rfl⟩ := hknown
    exact h r hr
  · have hone : up (parentOf rows) 1 (some a) = none := parentOf_of_not_known hknown
    exact up_eq_none_of_le hone hn

theorem Sound.ends (h : Sound bounded rows) : Ends (parentOf rows) := by
  intro a
  by_cases hknown : Known rows a
  · obtain ⟨tenantId, hof⟩ := known_nodesOf hknown
    obtain ⟨n, hn⟩ := (h.tenants tenantId).ends a
    exact ⟨n, (up_nodesOf h.ids (h.tenants tenantId).closed hof n).trans hn⟩
  · exact ⟨1, parentOf_of_not_known hknown⟩

theorem Sound.forest (h : Sound bounded rows) : OrgForest rows := by
  refine ⟨h.ends.acyclic, fun r hr p hp => ?_⟩
  obtain ⟨parent, hparent, hid⟩ :=
    (h.tenants r.tenantId).closed r (mem_nodesOf.mpr ⟨hr, rfl⟩) p hp
  obtain ⟨hmem, htenant⟩ := mem_nodesOf.mp hparent
  exact ⟨parent, hmem, hid, htenant⟩

theorem Sound.depthLimit (h : Sound bounded rows) (hbounded : bounded) : DepthLimit rows := by
  refine within_of_known (by decide) fun r hr => ?_
  have hof : Known (nodesOf r.tenantId rows) r.id := ⟨r, mem_nodesOf.mpr ⟨hr, rfl⟩, rfl⟩
  rw [up_nodesOf h.ids (h.tenants r.tenantId).closed hof]
  exact (h.tenants r.tenantId).within hbounded r.id

theorem sound_of_forest (hids : (rows.map OrgNode.id).Nodup) (hforest : OrgForest rows)
    (hdepth : DepthLimit rows) : Sound bounded rows := by
  refine ⟨hids, fun tenantId => ?_⟩
  have hclosed : Closed (nodesOf tenantId rows) := by
    intro r hr p hp
    obtain ⟨hmem, htenant⟩ := mem_nodesOf.mp hr
    obtain ⟨parent, hparent, hid, hsame⟩ := hforest.sameTenant r hmem p hp
    exact ⟨parent, mem_nodesOf.mpr ⟨hparent, hsame.trans htenant⟩, hid⟩
  have hwithin : Within (parentOf (nodesOf tenantId rows)) maxDepth := by
    refine within_of_known (by decide) fun r hr => ?_
    rw [← up_nodesOf hids hclosed ⟨r, hr, rfl⟩]
    exact hdepth r.id
  exact ⟨hclosed, hwithin.ends, fun _ => hwithin⟩

end

end Prequest.Organisation
