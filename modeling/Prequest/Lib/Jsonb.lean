import Mathlib.Data.List.Sort
import Mathlib.Data.Prod.Lex
import Mathlib.Data.String.Basic

/-!
# Values of type `jsonb`

A value of type `jsonb` is a tree of scalars, arrays and objects whose keys are in
order, so that two values are equal when their trees are. A path of keys and places
leads from a value to the values inside it, and two values are equal when the same is
found at every path. Numbers are of any type.

* `eq_of_view_eq`: values that look alike at every path are equal.
* `view_prune`, `prune_eq_prune_iff`: pruning takes away the paths that the rule gives up, and no
  others.
-/

namespace Prequest.Lib

inductive JsonScalar (ν : Type) where
  | null
  | bool (b : Bool)
  | number (n : ν)
  | string (s : String)
  deriving DecidableEq, Repr

inductive JsonTree (ν : Type) where
  | scalar (s : JsonScalar ν)
  | array (xs : List (JsonTree ν))
  | object (fields : List (String × JsonTree ν))
  deriving Repr

namespace JsonTree

variable {ν : Type} {fields : List (String × JsonTree ν)} {a b : JsonTree ν}

/-! ## The order of the keys -/

/-- Shorter keys go first, then by their bytes. -/
def keyRank (key : String) : ℕ ×ₗ String := toLex (key.utf8ByteSize, key)

/-- The keys of the fields are in order, and different. -/
def Ordered (fields : List (String × JsonTree ν)) : Prop :=
  fields.Pairwise fun p q => keyRank p.1 < keyRank q.1

/-- Every object has its keys in order. -/
inductive Canonical : JsonTree ν → Prop
  | scalar (s : JsonScalar ν) : Canonical (.scalar s)
  | array {xs : List (JsonTree ν)} (elements : ∀ x ∈ xs, Canonical x) : Canonical (.array xs)
  | object {fields : List (String × JsonTree ν)} (ordered : Ordered fields)
      (values : ∀ p ∈ fields, Canonical p.2) : Canonical (.object fields)

/-- The field at its place, unless there is one with its key. -/
def insertField (p : String × JsonTree ν) :
    List (String × JsonTree ν) → List (String × JsonTree ν)
  | [] => [p]
  | q :: rest =>
      if keyRank p.1 < keyRank q.1 then p :: q :: rest
      else if p.1 = q.1 then q :: rest
      else q :: insertField p rest

/-- `jsonb_object_agg(key, value)`. -/
def objectAgg (pairs : List (String × JsonTree ν)) : List (String × JsonTree ν) :=
  pairs.foldr insertField []

theorem objectAgg_of_ordered (h : Ordered fields) : objectAgg fields = fields := by
  induction fields with
  | nil => rfl
  | cons p fields ih =>
    obtain ⟨hfirst, hrest⟩ := List.pairwise_cons.mp h
    have htail : objectAgg (p :: fields) = insertField p fields := by
      rw [objectAgg, List.foldr_cons]
      exact congrArg (insertField p) (ih hrest)
    rw [htail]
    cases fields with
    | nil => rfl
    | cons q fields => rw [insertField, if_pos (hfirst q List.mem_cons_self)]

section

variable {fields fields' : List (String × JsonTree ν)} {k : String} {x : JsonTree ν}

theorem lookup_eq_some_iff (h : Ordered fields) : fields.lookup k = some x ↔ (k, x) ∈ fields := by
  induction fields with
  | nil => simp
  | cons p fields ih =>
    obtain ⟨hfirst, hrest⟩ := List.pairwise_cons.mp h
    obtain ⟨key, value⟩ := p
    by_cases hkey : k = key
    · subst hkey
      rw [List.lookup_cons_self, Option.some.injEq, List.mem_cons, Prod.mk.injEq]
      constructor
      · rintro rfl
        exact Or.inl ⟨rfl, rfl⟩
      · rintro (⟨_, rfl⟩ | hmem)
        · rfl
        · exact absurd (hfirst _ hmem) (lt_irrefl _)
    · rw [List.lookup_cons, beq_false_of_ne hkey, List.mem_cons, Prod.mk.injEq]
      rw [or_iff_right fun h => hkey h.1]
      exact ih hrest

theorem eq_of_lookup_eq (h : Ordered fields) (h' : Ordered fields')
    (heq : ∀ k, fields.lookup k = fields'.lookup k) : fields = fields' := by
  have hnodup : ∀ {l : List (String × JsonTree ν)}, Ordered l → l.Nodup := fun hl =>
    hl.imp fun hlt hsame => absurd (hsame ▸ hlt) (lt_irrefl _)
  have hperm : fields.Perm fields' := by
    rw [List.perm_ext_iff_of_nodup (hnodup h) (hnodup h')]
    rintro ⟨k, x⟩
    rw [← lookup_eq_some_iff h, ← lookup_eq_some_iff h', heq]
  refine hperm.eq_of_pairwise ?_ h h'
  intro p q _ _ hpq hqp
  exact absurd hpq hqp.asymm

end

/-! ## Paths -/

/-- One step into a value. -/
inductive PathStep where
  | key (k : String)
  | index (i : Nat)
  deriving DecidableEq, Repr

/-- What is found at a path. -/
def at? : JsonTree ν → List PathStep → Option (JsonTree ν)
  | v, [] => some v
  | .array xs, .index i :: path => xs[i]?.bind fun x => x.at? path
  | .object fields, .key k :: path => (fields.lookup k).bind fun x => x.at? path
  | _, _ => none

/-- A value without what is inside it. -/
inductive Shape (ν : Type) where
  | scalar (s : JsonScalar ν)
  | array (length : Nat)
  | object
  deriving DecidableEq, Repr

def shape : JsonTree ν → Shape ν
  | .scalar s => .scalar s
  | .array xs => .array xs.length
  | .object _ => .object

/-- What a value looks like at a path. -/
def view (v : JsonTree ν) (path : List PathStep) : Option (Shape ν) := (v.at? path).map shape

@[simp] theorem at?_nil (v : JsonTree ν) : v.at? [] = some v := by
  cases v <;> rfl

@[simp] theorem at?_array_index (xs : List (JsonTree ν)) (i : Nat) (path : List PathStep) :
    (JsonTree.array xs).at? (.index i :: path) = xs[i]?.bind fun x => x.at? path := rfl

@[simp] theorem at?_object_key (fields : List (String × JsonTree ν)) (k : String)
    (path : List PathStep) :
    (JsonTree.object fields).at? (.key k :: path) =
      (fields.lookup k).bind fun x => x.at? path := rfl

theorem view_nil (v : JsonTree ν) : v.view [] = some v.shape := by
  rw [view, at?_nil, Option.map_some]

theorem shape_eq_of_view_nil (h : a.view [] = b.view []) : a.shape = b.shape := by
  rw [view_nil, view_nil] at h
  exact Option.some.inj h

theorem eq_of_view_eq (ha : Canonical a) (hb : Canonical b)
    (h : ∀ path, a.view path = b.view path) : a = b := by
  induction ha generalizing b with
  | scalar s =>
    have hroot := shape_eq_of_view_nil (h [])
    cases b with
    | scalar s' =>
      cases hroot
      rfl
    | array ys => cases hroot
    | object fields => cases hroot
  | @array xs _ ih =>
    have hroot := shape_eq_of_view_nil (h [])
    cases hb with
    | scalar s => cases hroot
    | object _ _ => cases hroot
    | @array ys hys =>
      have hlength : xs.length = ys.length := by
        simpa [shape] using hroot
      congr 1
      refine List.ext_getElem hlength fun i hi hi' => ?_
      refine ih _ (List.getElem_mem hi) (hys _ (List.getElem_mem hi')) fun path => ?_
      have hpath := h (.index i :: path)
      simpa [view, List.getElem?_eq_getElem hi, List.getElem?_eq_getElem hi'] using hpath
  | @object fields hordered _ ih =>
    have hroot := shape_eq_of_view_nil (h [])
    cases hb with
    | scalar s => cases hroot
    | array _ => cases hroot
    | @object fields' hordered' hvalues' =>
      congr 1
      refine eq_of_lookup_eq hordered hordered' fun k => ?_
      have hat : ∀ path, ((fields.lookup k).bind fun x => x.at? path).map shape =
          ((fields'.lookup k).bind fun x => x.at? path).map shape := fun path => h (.key k :: path)
      cases hx : fields.lookup k with
      | none =>
        cases hy : fields'.lookup k with
        | none => rfl
        | some y =>
          have hnil := hat []
          simp [hx, hy] at hnil
      | some x =>
        cases hy : fields'.lookup k with
        | none =>
          have hnil := hat []
          simp [hx, hy] at hnil
        | some y =>
          have hmem := (lookup_eq_some_iff hordered).mp hx
          have hmem' := (lookup_eq_some_iff hordered').mp hy
          refine congrArg some (ih _ hmem (hvalues' _ hmem') fun path => ?_)
          have hpath := hat path
          rwa [hx, hy, Option.bind_some, Option.bind_some] at hpath

/-! ## Leaving fields out -/

/-- What a walk into a value does: at a key it goes on or gives up. -/
structure PathRule (κ : Type) where
  onKey : κ → String → Option κ
  onIndex : κ → κ

variable {κ : Type} (r : PathRule κ)

/-- Where the walk along a path gets. -/
def PathRule.follow : κ → List PathStep → Option κ
  | c, [] => some c
  | c, .key k :: path => (r.onKey c k).bind fun c' => PathRule.follow c' path
  | c, .index _ :: path => PathRule.follow (r.onIndex c) path

mutual

/-- A value without the fields at whose keys the walk gives up. -/
def prune : κ → JsonTree ν → JsonTree ν
  | _, .scalar s => .scalar s
  | c, .array xs => .array (pruneElements (r.onIndex c) xs)
  | c, .object fields => .object (pruneFields c fields)

def pruneElements : κ → List (JsonTree ν) → List (JsonTree ν)
  | _, [] => []
  | c, x :: xs => prune c x :: pruneElements c xs

def pruneFields : κ → List (String × JsonTree ν) → List (String × JsonTree ν)
  | _, [] => []
  | c, (k, x) :: fields =>
      match r.onKey c k with
      | none => pruneFields c fields
      | some c' => (k, prune c' x) :: pruneFields c fields

end

theorem pruneElements_eq (c : κ) (xs : List (JsonTree ν)) :
    pruneElements r c xs = xs.map (prune r c) := by
  induction xs with
  | nil => rfl
  | cons x xs ih => rw [pruneElements, ih, List.map_cons]

theorem pruneFields_eq (c : κ) (fields : List (String × JsonTree ν)) :
    pruneFields r c fields =
      fields.filterMap fun p => (r.onKey c p.1).map fun c' => (p.1, prune r c' p.2) := by
  induction fields with
  | nil => rfl
  | cons p fields ih =>
    obtain ⟨k, x⟩ := p
    rw [pruneFields, ih]
    cases hk : r.onKey c k with
    | none => rw [List.filterMap_cons_none (by simp [hk])]
    | some c' => rw [List.filterMap_cons_some (by simp [hk]; rfl)]

theorem lookup_pruneFields (c : κ) (fields : List (String × JsonTree ν)) (k : String) :
    (pruneFields r c fields).lookup k =
      (r.onKey c k).bind fun c' => (fields.lookup k).map (prune r c') := by
  induction fields with
  | nil => cases r.onKey c k <;> rfl
  | cons p fields ih =>
    obtain ⟨key, x⟩ := p
    by_cases hkey : k = key
    · subst hkey
      rw [pruneFields]
      cases hk : r.onKey c k with
      | none => simpa [hk] using ih
      | some c' => simp
    · rw [pruneFields, List.lookup_cons, beq_false_of_ne hkey]
      cases r.onKey c key with
      | none => exact ih
      | some c' =>
        rw [List.lookup_cons, beq_false_of_ne hkey]
        exact ih

theorem at?_prune (c : κ) (v : JsonTree ν) (path : List PathStep) :
    (prune r c v).at? path = (r.follow c path).bind fun c' => (v.at? path).map (prune r c') := by
  induction path generalizing c v with
  | nil => simp [PathRule.follow]
  | cons step path ih =>
    cases v with
    | scalar s => cases step <;> simp [prune, at?]
    | array xs =>
      cases step with
      | key k => simp [prune, at?]
      | index i =>
        rw [prune, at?_array_index, at?_array_index, pruneElements_eq, List.getElem?_map,
          PathRule.follow]
        cases xs[i]? with
        | none => simp
        | some x => exact ih (r.onIndex c) x
    | object fields =>
      cases step with
      | index i => simp [prune, at?]
      | key k =>
        rw [prune, at?_object_key, at?_object_key, lookup_pruneFields, PathRule.follow]
        cases r.onKey c k with
        | none => rfl
        | some c' =>
          rw [Option.bind_some, Option.bind_some]
          cases fields.lookup k with
          | none => simp
          | some x => exact ih c' x

theorem shape_prune (c : κ) (v : JsonTree ν) : (prune r c v).shape = v.shape := by
  cases v with
  | scalar s => rfl
  | array xs => simp [prune, shape, pruneElements_eq]
  | object fields => rfl

theorem view_prune (c : κ) (v : JsonTree ν) (path : List PathStep) :
    (prune r c v).view path = if (r.follow c path).isSome then v.view path else none := by
  rw [view, at?_prune, view]
  cases r.follow c path with
  | none => rfl
  | some c' =>
    rw [Option.bind_some, Option.isSome_some, if_pos rfl, Option.map_map]
    refine congrFun (congrArg Option.map ?_) (v.at? path)
    funext x
    exact shape_prune r c' x

theorem ordered_pruneFields (c : κ) (h : Ordered fields) : Ordered (pruneFields r c fields) := by
  rw [pruneFields_eq, Ordered, List.pairwise_filterMap]
  refine h.imp fun {p q} hlt p' hp q' hq => ?_
  obtain ⟨_, _, rfl⟩ := Option.map_eq_some_iff.mp hp
  obtain ⟨_, _, rfl⟩ := Option.map_eq_some_iff.mp hq
  exact hlt

theorem canonical_prune {v : JsonTree ν} (h : Canonical v) (c : κ) : Canonical (prune r c v) := by
  induction h generalizing c with
  | scalar s => exact .scalar s
  | array _ ih =>
    rw [prune, pruneElements_eq]
    refine .array fun x hx => ?_
    obtain ⟨y, hy, rfl⟩ := List.mem_map.mp hx
    exact ih y hy _
  | @object fields hordered _ ih =>
    refine .object (ordered_pruneFields r c hordered) fun p hp => ?_
    rw [pruneFields_eq] at hp
    obtain ⟨q, hq, heq⟩ := List.mem_filterMap.mp hp
    obtain ⟨c', _, rfl⟩ := Option.map_eq_some_iff.mp heq
    exact ih q hq c'

theorem prune_eq_prune_iff (ha : Canonical a) (hb : Canonical b) (c : κ) :
    prune r c a = prune r c b ↔
      ∀ path, (r.follow c path).isSome = true → a.view path = b.view path := by
  constructor
  · intro h path hpath
    have hview := congrArg (fun v => v.view path) h
    simpa only [view_prune, hpath, if_true] using hview
  · intro h
    refine eq_of_view_eq (canonical_prune r ha c) (canonical_prune r hb c) fun path => ?_
    rw [view_prune, view_prune]
    by_cases hpath : (r.follow c path).isSome = true
    · rw [if_pos hpath, if_pos hpath, h path hpath]
    · rw [if_neg hpath, if_neg hpath]

theorem prune_prune {v : JsonTree ν} (h : Canonical v) (c : κ) :
    prune r c (prune r c v) = prune r c v := by
  rw [prune_eq_prune_iff r (canonical_prune r h c) h]
  intro path hpath
  rw [view_prune, if_pos hpath]

/-! ## All values that a walk comes to -/

/-- `P` holds of every value that the walk comes to, at its place. -/
def Everywhere (P : κ → JsonTree ν → Prop) (c : κ) (v : JsonTree ν) : Prop :=
  ∀ path c' x, r.follow c path = some c' → v.at? path = some x → P c' x

section

variable {r} {P : κ → JsonTree ν → Prop} {c : κ}

theorem everywhere_scalar {s : JsonScalar ν} :
    Everywhere r P c (.scalar s) ↔ P c (.scalar s) := by
  constructor
  · exact fun h => h [] c _ rfl rfl
  · intro h path c' x hfollow hat
    cases path with
    | nil =>
      cases hfollow
      cases hat
      exact h
    | cons step path => cases step <;> cases hat

theorem everywhere_array {xs : List (JsonTree ν)} :
    Everywhere r P c (.array xs) ↔
      P c (.array xs) ∧ ∀ x ∈ xs, Everywhere r P (r.onIndex c) x := by
  constructor
  · intro h
    refine ⟨h [] c _ rfl rfl, fun x hx path c' y hfollow hat => ?_⟩
    obtain ⟨i, hi, rfl⟩ := List.getElem_of_mem hx
    refine h (.index i :: path) c' y hfollow ?_
    rw [at?_array_index, List.getElem?_eq_getElem hi]
    exact hat
  · rintro ⟨hroot, helements⟩ path c' y hfollow hat
    cases path with
    | nil =>
      cases hfollow
      cases hat
      exact hroot
    | cons step path =>
      cases step with
      | key k => cases hat
      | index i =>
        rw [at?_array_index] at hat
        obtain ⟨x, hx, hat⟩ := Option.bind_eq_some_iff.mp hat
        exact helements x (List.mem_of_getElem? hx) path c' y hfollow hat

theorem everywhere_object (hordered : Ordered fields) :
    Everywhere r P c (.object fields) ↔ P c (.object fields) ∧
      ∀ p ∈ fields, ∀ c', r.onKey c p.1 = some c' → Everywhere r P c' p.2 := by
  constructor
  · intro h
    refine ⟨h [] c _ rfl rfl, fun p hp c' hkey path c'' y hfollow hat => ?_⟩
    refine h (.key p.1 :: path) c'' y ?_ ?_
    · rw [PathRule.follow, hkey]
      exact hfollow
    · rw [at?_object_key, (lookup_eq_some_iff hordered).mpr hp]
      exact hat
  · rintro ⟨hroot, hvalues⟩ path c'' y hfollow hat
    cases path with
    | nil =>
      cases hfollow
      cases hat
      exact hroot
    | cons step path =>
      cases step with
      | index i => cases hat
      | key k =>
        rw [at?_object_key] at hat
        obtain ⟨x, hx, hat⟩ := Option.bind_eq_some_iff.mp hat
        rw [PathRule.follow] at hfollow
        obtain ⟨c', hkey, hfollow⟩ := Option.bind_eq_some_iff.mp hfollow
        exact hvalues (k, x) ((lookup_eq_some_iff hordered).mp hx) c' hkey path c'' y hfollow hat

end

/-! ## The operator `-` with a text -/

inductive JsonbError where
  | cannotDeleteFromScalar
  deriving DecidableEq, Repr

/-- The scalar is this text. -/
def isText (text : String) : JsonTree ν → Bool
  | .scalar (.string s) => s == text
  | _ => false

/-- `value - text`: a field of an object, or the strings of an array. -/
def deleteText (text : String) : JsonTree ν → Except JsonbError (JsonTree ν)
  | .scalar _ => .error .cannotDeleteFromScalar
  | .array xs => .ok (.array (xs.filter fun x => !isText text x))
  | .object fields => .ok (.object (fields.filter fun p => p.1 != text))

theorem sizeOf_filter_le {α : Type} [SizeOf α] (p : α → Bool) (l : List α) :
    sizeOf (l.filter p) ≤ sizeOf l := by
  induction l with
  | nil => exact le_rfl
  | cons a l ih =>
    rw [List.filter_cons]
    split
    · simp only [List.cons.sizeOf_spec]
      omega
    · simp only [List.cons.sizeOf_spec]
      omega

theorem sizeOf_deleteText_le {text : String} {v w : JsonTree ν} (h : v.deleteText text = .ok w) :
    sizeOf w ≤ sizeOf v := by
  cases v with
  | scalar s => cases h
  | array xs =>
    cases h
    have hle := sizeOf_filter_le (fun x => !isText text x) xs
    simp only [array.sizeOf_spec]
    omega
  | object fields =>
    cases h
    have hle := sizeOf_filter_le (fun p : String × JsonTree ν => p.1 != text) fields
    simp only [object.sizeOf_spec]
    omega

end JsonTree

/-- A value of type `jsonb`. -/
structure Jsonb (ν : Type) where
  tree : JsonTree ν
  canonical : tree.Canonical

end Prequest.Lib
