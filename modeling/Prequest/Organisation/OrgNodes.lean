import Mathlib.Data.List.Nodup
import Prequest.Lib.Forest
import Prequest.Lib.ReadCommitted

/-!
# The tree of an organisation

The nodes of an organisation refer to their parents. A trigger on every insert and
update takes a lock for the tenant, and walks from the new parent upwards: it raises
when it comes to the node itself, or has taken as many steps as the tree may be deep.
A second trigger wants the parent to be a node of the same tenant. A transaction holds
the lock until it ends, and each query of a trigger sees what is committed by then.

* `up_nodesOf`: chains stay in their tenant.
-/

namespace Prequest.Organisation

open Prequest.Lib Prequest.Lib.ReadCommitted

/-- A row of `org_nodes`. -/
structure OrgNode where
  id : Nat
  tenantId : Nat
  parentId : Option Nat
  deriving DecidableEq, Repr

def lookup (rows : List OrgNode) (id : Nat) : Option OrgNode := rows.find? fun r => r.id == id

/-- `select parent_id from org_nodes where id = …`. -/
def parentOf (rows : List OrgNode) (id : Nat) : Option Nat := (lookup rows id).bind OrgNode.parentId

def nodesOf (tenantId : Nat) (rows : List OrgNode) : List OrgNode :=
  rows.filter fun r => r.tenantId == tenantId

/-! ## Transactions -/

inductive OrgStatement where
  | insert (node : OrgNode)
  | setParent (id : Nat) (parentId : Option Nat)
  deriving DecidableEq, Repr

/-- The row that a trigger sees as `new`, and whether it is inserted. -/
structure RowChange where
  new : OrgNode
  inserts : Bool
  deriving DecidableEq, Repr

/-- The advisory lock of a tenant, and the entry of an id in the primary key. -/
inductive OrgLock where
  | tenant (tenantId : Nat)
  | nodeId (id : Nat)
  deriving DecidableEq, Repr

inductive OrgPoint where
  | statement
  | advisory (c : RowChange)
  | walk (c : RowChange) (cursor : Option Nat) (depth : Nat)
  | tenantMatch (c : RowChange)
  | store (c : RowChange)
  deriving DecidableEq, Repr

/-- Where a transaction is, and the statements that are still to come. -/
structure OrgPc where
  point : OrgPoint
  rest : List OrgStatement
  deriving DecidableEq, Repr

/-- How many steps the walk takes. -/
def maxDepth : Nat := 50

def applyChange (rows : List OrgNode) (c : RowChange) : List OrgNode :=
  if c.inserts then rows ++ [c.new]
  else rows.map fun r =>
    if r.id = c.new.id ∧ r.tenantId = c.new.tenantId then { r with parentId := c.new.parentId } else r

/-- The lock that is taken before the query at a point. -/
def orgLock (pc : OrgPc) : Option OrgLock :=
  match pc.point with
  | .advisory c => some (.tenant c.new.tenantId)
  -- An insert waits for an uncommitted row with its key.
  | .store c => if c.inserts then some (.nodeId c.new.id) else none
  | _ => none

def orgExec (pc : OrgPc) (rows : List OrgNode) : Effect (List OrgNode) OrgPc :=
  match pc.point with
  | .statement =>
      match pc.rest with
      | [] => .commit pc id
      | .insert node :: rest => .next ⟨.advisory ⟨node, true⟩, rest⟩ id
      | .setParent nodeId parentId :: rest =>
          match lookup rows nodeId with
          | none => .next ⟨.statement, rest⟩ id
          | some r => .next ⟨.advisory ⟨{ r with parentId := parentId }, false⟩, rest⟩ id
  -- `enforce_org_node_no_cycle`, from the lock on.
  | .advisory c =>
      match c.new.parentId with
      | none => .next ⟨.store c, pc.rest⟩ id
      | some p => if p = c.new.id then .abort else .next ⟨.walk c (some p) 0, pc.rest⟩ id
  | .walk c cursor depth =>
      if depth < maxDepth then
        match cursor with
        | none => .next ⟨.tenantMatch c, pc.rest⟩ id
        | some a =>
            if a = c.new.id then .abort
            else .next ⟨.walk c (parentOf rows a) (depth + 1), pc.rest⟩ id
      else .abort
  -- `enforce_org_node_tenant_match`, for a row with a parent.
  | .tenantMatch c =>
      match c.new.parentId.bind (lookup rows) with
      | none => .abort
      | some parent =>
          if parent.tenantId = c.new.tenantId then .next ⟨.store c, pc.rest⟩ id else .abort
  | .store c =>
      if c.inserts = true ∧ (lookup rows c.new.id).isSome = true then .abort
      else .next ⟨.statement, pc.rest⟩ fun rows => applyChange rows c

def orgProgram (statements : List OrgStatement) : Program (List OrgNode) OrgLock OrgPc where
  start := ⟨.statement, statements⟩
  lock := orgLock
  exec := orgExec

/-! ## What is wanted -/

structure OrgForest (rows : List OrgNode) : Prop where
  noCycle : ∀ a n, up (parentOf rows) (n + 1) (some a) ≠ some a
  sameTenant : ∀ r ∈ rows, ∀ p, r.parentId = some p →
    ∃ parent ∈ rows, parent.id = p ∧ parent.tenantId = r.tenantId

/-- No chain of parents has more nodes than the tree may be deep. -/
def DepthLimit (rows : List OrgNode) : Prop := Within (parentOf rows) maxDepth

/-! ## The rows of one tenant -/

section

variable {rows : List OrgNode} {tenantId id : Nat} {r : OrgNode} {c : RowChange}

def Known (rows : List OrgNode) (id : Nat) : Prop := ∃ r ∈ rows, r.id = id

theorem mem_nodesOf : r ∈ nodesOf tenantId rows ↔ r ∈ rows ∧ r.tenantId = tenantId := by
  rw [nodesOf, List.mem_filter, beq_iff_eq]

theorem mem_of_lookup (h : lookup rows id = some r) : r ∈ rows ∧ r.id = id :=
  ⟨List.mem_of_find?_eq_some h, beq_iff_eq.mp (List.find?_some (p := fun r : OrgNode => r.id == id) h)⟩

theorem lookup_eq_some (hids : (rows.map OrgNode.id).Nodup) :
    lookup rows id = some r ↔ r ∈ rows ∧ r.id = id := by
  constructor
  · exact mem_of_lookup
  · rintro ⟨hr, rfl⟩
    cases hfind : lookup rows r.id with
    | none => exact absurd BEq.rfl (List.find?_eq_none.mp hfind r hr)
    | some s =>
      obtain ⟨hs, hid⟩ := mem_of_lookup hfind
      rw [List.inj_on_of_nodup_map hids hs hr hid]

theorem lookup_eq_none : lookup rows id = none ↔ ¬Known rows id := by
  rw [lookup, List.find?_eq_none]
  constructor
  · rintro h ⟨r, hr, hid⟩
    exact h r hr (beq_iff_eq.mpr hid)
  · intro h r hr hid
    exact h ⟨r, hr, beq_iff_eq.mp hid⟩

theorem parentOf_of_not_known (h : ¬Known rows id) : parentOf rows id = none := by
  rw [parentOf, lookup_eq_none.mpr h, Option.bind_none]

def Closed (rows : List OrgNode) : Prop := ∀ r ∈ rows, ∀ p, r.parentId = some p → Known rows p

theorem Closed.known_up (h : Closed rows) (hknown : Known rows id) {n a : Nat}
    (hup : up (parentOf rows) n (some id) = some a) : Known rows a := by
  induction n generalizing a with
  | zero =>
    cases hup
    exact hknown
  | succ n ih =>
    rw [up_succ] at hup
    obtain ⟨b, hb, hparent⟩ := Option.bind_eq_some_iff.mp hup
    obtain ⟨r, hr, hp⟩ := Option.bind_eq_some_iff.mp hparent
    exact h r (List.mem_of_find?_eq_some hr) a hp

theorem ids_nodesOf (hids : (rows.map OrgNode.id).Nodup) :
    ((nodesOf tenantId rows).map OrgNode.id).Nodup :=
  hids.sublist (List.filter_sublist.map _)

theorem parentOf_nodesOf (hids : (rows.map OrgNode.id).Nodup)
    (hknown : Known (nodesOf tenantId rows) id) :
    parentOf rows id = parentOf (nodesOf tenantId rows) id := by
  obtain ⟨r, hr, hid⟩ := hknown
  rw [parentOf, parentOf, (lookup_eq_some hids).mpr ⟨(mem_nodesOf.mp hr).1, hid⟩,
    (lookup_eq_some (ids_nodesOf hids)).mpr ⟨hr, hid⟩]

theorem up_nodesOf (hids : (rows.map OrgNode.id).Nodup) (hclosed : Closed (nodesOf tenantId rows))
    (hknown : Known (nodesOf tenantId rows) id) (n : Nat) :
    up (parentOf rows) n (some id) = up (parentOf (nodesOf tenantId rows)) n (some id) :=
  up_congr fun _ _ _ hup => parentOf_nodesOf hids (hclosed.known_up hknown hup)

/-! ## Changes -/

theorem nodesOf_applyChange (tenantId : Nat) (rows : List OrgNode) (c : RowChange) :
    nodesOf tenantId (applyChange rows c) =
      if c.new.tenantId = tenantId then applyChange (nodesOf tenantId rows) c
      else nodesOf tenantId rows := by
  unfold applyChange
  cases c.inserts with
  | true =>
    rw [if_pos rfl, if_pos rfl, nodesOf, List.filter_append]
    by_cases htenant : c.new.tenantId = tenantId
    · rw [if_pos htenant, List.filter_cons, if_pos (beq_iff_eq.mpr htenant)]
      rfl
    · rw [if_neg htenant, List.filter_cons, if_neg (by rwa [beq_iff_eq]), List.filter_nil,
        List.append_nil]
      rfl
  | false =>
    simp only [Bool.false_eq_true, if_false]
    have htenant : ∀ r : OrgNode, (if r.id = c.new.id ∧ r.tenantId = c.new.tenantId then
        { r with parentId := c.new.parentId } else r).tenantId = r.tenantId := by
      intro r
      split <;> rfl
    rw [nodesOf, List.filter_map]
    simp only [Function.comp_def, htenant]
    by_cases hof : c.new.tenantId = tenantId
    · rw [if_pos hof]
      rfl
    · rw [if_neg hof]
      refine (List.map_congr_left fun r hr => ?_).trans (List.map_id _)
      have hr := (mem_nodesOf.mp hr).2
      rw [if_neg fun h => hof (h.2.symm.trans hr)]
      rfl

def applyChanges (rows : List OrgNode) (changes : List RowChange) : List OrgNode :=
  changes.foldl applyChange rows

theorem nodesOf_applyChanges (tenantId : Nat) (rows : List OrgNode) (changes : List RowChange) :
    nodesOf tenantId (applyChanges rows changes) =
      applyChanges (nodesOf tenantId rows)
        (changes.filter fun c => c.new.tenantId == tenantId) := by
  induction changes generalizing rows with
  | nil => rfl
  | cons c changes ih =>
    have hnext := ih (applyChange rows c)
    rw [nodesOf_applyChange] at hnext
    rw [applyChanges, List.foldl_cons, ← applyChanges, hnext, List.filter_cons]
    by_cases htenant : c.new.tenantId = tenantId
    · rw [if_pos htenant, if_pos (beq_iff_eq.mpr htenant)]
      rfl
    · rw [if_neg htenant, if_neg (by rwa [beq_iff_eq])]

theorem nodesOf_applyChanges_other {changes : List RowChange}
    (h : ∀ c ∈ changes, c.new.tenantId ≠ tenantId) :
    nodesOf tenantId (applyChanges rows changes) = nodesOf tenantId rows := by
  rw [nodesOf_applyChanges, List.filter_eq_nil_iff.mpr fun c hc htenant =>
    h c hc (beq_iff_eq.mp htenant)]
  rfl

def OrgNode.key (r : OrgNode) : Nat × Nat := (r.id, r.tenantId)

def insertedKeys (changes : List RowChange) : List (Nat × Nat) :=
  (changes.filter RowChange.inserts).map fun c => c.new.key

section

variable (rows : List OrgNode)

theorem keys_applyChange (c : RowChange) :
    (applyChange rows c).map OrgNode.key = rows.map OrgNode.key ++ insertedKeys [c] := by
  unfold applyChange insertedKeys
  cases hinserts : c.inserts with
  | true => simp [hinserts]
  | false =>
    simp only [Bool.false_eq_true, if_false, List.map_map]
    rw [List.filter_cons_of_neg (by simp [hinserts]), List.filter_nil, List.map_nil,
      List.append_nil]
    refine List.map_congr_left fun r _ => ?_
    rw [Function.comp_apply]
    split <;> rfl

theorem keys_applyChanges (changes : List RowChange) :
    (applyChanges rows changes).map OrgNode.key = rows.map OrgNode.key ++ insertedKeys changes := by
  induction changes generalizing rows with
  | nil => simp [applyChanges, insertedKeys]
  | cons c changes ih =>
    rw [applyChanges, List.foldl_cons, ← applyChanges, ih, keys_applyChange, List.append_assoc]
    congr 1
    unfold insertedKeys
    rw [List.filter_cons, List.filter_cons]
    cases c.inserts <;> rfl

theorem ids_eq_keys : rows.map OrgNode.id = (rows.map OrgNode.key).map Prod.fst := by
  rw [List.map_map]
  rfl

end

end

end Prequest.Organisation
