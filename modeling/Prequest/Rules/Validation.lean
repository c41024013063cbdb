import Prequest.Rules.Predicate

/-!
# Validated predicates

A predicate is validated when its rule is saved. The validator, the fetching of
answers and the evaluation walk the same tree, each in its own way.

* `evaluateAt_ok_iff`: an evaluation returns when the leaves that it comes to do.
-/

namespace Prequest.Rules

open Prequest.Lib

/-! ## The validator -/

def knownOps : List String := ["eq", "ne", "in", "gt", "gte", "lt", "lte", "contains"]

def knownFns : List String :=
  ["in_business_hours", "in_org_descendants", "duration_minutes_lt", "duration_minutes_gt",
    "lead_minutes_lt", "lead_minutes_gt", "has_permission", "array_intersects",
    "attendees_over_capacity_factor", "attendees_below_min"]

/-- The checks of a node with `fn`. -/
def validateFn (p : JsValue) : Except PredicateError Unit :=
  match p.get "fn" with
  | .string fn =>
      if knownFns.contains fn then
        match p.get "args" with
        | .array _ => .ok ()
        | _ => .error (.invalidPredicate ("fn " ++ fn ++ " requires args[]"))
      else .error (.invalidPredicate ("unknown predicate fn: " ++ fn))
  | fn => .error (.invalidPredicate ("unknown predicate fn: " ++ fn.toStr))

/-- The checks of a node with `op`. -/
def validateOp (p : JsValue) : Except PredicateError Unit :=
  match p.get "op" with
  | .string op =>
      if !knownOps.contains op then .error (.invalidPredicate ("unknown op: " ++ op))
      else if !p.hasKey "left" then .error (.invalidPredicate ("op " ++ op ++ " requires left"))
      else if op != "in" && !p.hasKey "right" then
        .error (.invalidPredicate ("op " ++ op ++ " requires right"))
      else .ok ()
  | op => .error (.invalidPredicate ("unknown op: " ++ op.toStr))

/-- `validate`, with the levels that may still be entered. -/
def validateAt : Nat → JsValue → Except PredicateError Unit
  | 0, _ => .error (.invalidPredicate "predicate nesting too deep")
  | levels + 1, .object fields =>
      let node := JsValue.object fields
      if node.hasKey "and" then
        match node.get "and" with
        | .array (c :: cs) => forM (c :: cs) (validateAt levels)
        | _ => .error (.invalidPredicate "and must be a non-empty array")
      else if node.hasKey "or" then
        match node.get "or" with
        | .array (c :: cs) => forM (c :: cs) (validateAt levels)
        | _ => .error (.invalidPredicate "or must be a non-empty array")
      else if node.hasKey "not" then validateAt levels (node.get "not")
      else if node.hasKey "fn" then validateFn node
      else if node.hasKey "op" then validateOp node
      else .error (.invalidPredicate "predicate node must have one of and|or|not|fn|op")
  | _ + 1, _ => .error (.invalidPredicate "predicate must be a non-array object")

/-- `validate(predicate)`. -/
def validate (predicate : JsValue) : Except PredicateError Unit := validateAt 11 predicate

/-! ## Shapes of validated nodes -/

/-- What a node is, by the first of its keys that says so. -/
inductive Node where
  | and (ps : List JsValue)
  | or (ps : List JsValue)
  | not (p : JsValue)
  | fn (name : String) (args : List JsValue)
  | op (name : String) (left right : JsValue)

def Node.evaluateAt (now : Int) (ctx : EvaluationContext) (levels : Nat) :
    Node → Except PredicateError Bool
  | .and ps => ps.allM (Rules.evaluateAt now ctx levels)
  | .or ps => ps.anyM (Rules.evaluateAt now ctx levels)
  | .not p => (Rules.evaluateAt now ctx levels p).map fun b => !b
  | .fn name args => evalFn now ctx (.string name) args
  | .op name left right => evalOp ctx (.string name) left right

/-- The node that is read off an object whose keys the validator has checked. -/
inductive IsNode (fields : List (String × JsValue)) : Node → Prop where
  | and {ps} (hand : (JsValue.object fields).hasKey "and" = true)
      (hget : (JsValue.object fields).get "and" = .array ps) : IsNode fields (.and ps)
  | or {ps} (hand : ¬(JsValue.object fields).hasKey "and" = true)
      (hor : (JsValue.object fields).hasKey "or" = true)
      (hget : (JsValue.object fields).get "or" = .array ps) : IsNode fields (.or ps)
  | not (hand : ¬(JsValue.object fields).hasKey "and" = true)
      (hor : ¬(JsValue.object fields).hasKey "or" = true)
      (hnot : (JsValue.object fields).hasKey "not" = true) :
      IsNode fields (.not ((JsValue.object fields).get "not"))
  | fn {name args} (hand : ¬(JsValue.object fields).hasKey "and" = true)
      (hor : ¬(JsValue.object fields).hasKey "or" = true)
      (hnot : ¬(JsValue.object fields).hasKey "not" = true)
      (hfn : (JsValue.object fields).hasKey "fn" = true)
      (hget : (JsValue.object fields).get "fn" = .string name) (hknown : name ∈ knownFns)
      (hargs : (JsValue.object fields).get "args" = .array args) : IsNode fields (.fn name args)
  | op {name} (hand : ¬(JsValue.object fields).hasKey "and" = true)
      (hor : ¬(JsValue.object fields).hasKey "or" = true)
      (hnot : ¬(JsValue.object fields).hasKey "not" = true)
      (hfn : ¬(JsValue.object fields).hasKey "fn" = true)
      (hop : (JsValue.object fields).hasKey "op" = true)
      (hget : (JsValue.object fields).get "op" = .string name) (hknown : name ∈ knownOps) :
      IsNode fields
        (.op name ((JsValue.object fields).get "left") ((JsValue.object fields).get "right"))

/-- The node has no predicates below it. -/
def Node.IsLeaf : Node → Prop
  | .fn .. | .op .. => True
  | _ => False

def Node.children : Node → List JsValue
  | .and ps | .or ps => ps
  | .not p => [p]
  | .fn .. | .op .. => []

section

variable {levels : Nat} {p : JsValue} {fields : List (String × JsValue)} {n : Node}

variable {ps : List JsValue} {f g : JsValue → Except PredicateError Bool}

theorem forM_ok {f : JsValue → Except PredicateError Unit}
    (h : forM ps f = .ok ()) : ∀ p ∈ ps, f p = .ok () := by
  induction ps with
  | nil => exact fun _ hp => absurd hp List.not_mem_nil
  | cons p ps ih =>
    rw [List.forM_cons] at h
    cases hp : f p with
    | error e =>
      rw [hp] at h
      cases h
    | ok u =>
      rw [hp] at h
      exact List.forall_mem_cons.mpr ⟨hp, ih h⟩

theorem isNode_of_validateFn (hand : ¬(JsValue.object fields).hasKey "and" = true)
    (hor : ¬(JsValue.object fields).hasKey "or" = true)
    (hnot : ¬(JsValue.object fields).hasKey "not" = true)
    (hfn : (JsValue.object fields).hasKey "fn" = true)
    (h : validateFn (.object fields) = .ok ()) :
    ∃ name args, IsNode fields (.fn name args) := by
  unfold validateFn at h
  split at h
  · rename_i name hget
    split at h
    · rename_i hknown
      split at h
      · rename_i args hargs
        exact ⟨name, args, .fn hand hor hnot hfn hget (List.contains_iff_mem.mp hknown) hargs⟩
      · cases h
    · cases h
  · cases h

theorem isNode_of_validateOp (hand : ¬(JsValue.object fields).hasKey "and" = true)
    (hor : ¬(JsValue.object fields).hasKey "or" = true)
    (hnot : ¬(JsValue.object fields).hasKey "not" = true)
    (hfn : ¬(JsValue.object fields).hasKey "fn" = true)
    (hop : (JsValue.object fields).hasKey "op" = true)
    (h : validateOp (.object fields) = .ok ()) :
    ∃ name left right, IsNode fields (.op name left right) := by
  unfold validateOp at h
  split at h
  · rename_i name hget
    split at h
    · cases h
    · rename_i hknown
      rw [Bool.not_eq_true', Bool.not_eq_false] at hknown
      exact ⟨name, _, _, .op hand hor hnot hfn hop hget (List.contains_iff_mem.mp hknown)⟩
  · cases h

theorem isNode_of_validateAt (h : validateAt levels p = .ok ()) :
    ∃ below fields n, levels = below + 1 ∧ p = .object fields ∧ IsNode fields n ∧
      ∀ q ∈ n.children, validateAt below q = .ok () := by
  unfold validateAt at h
  split at h
  · cases h
  · rename_i below fields
    refine ⟨below, fields, ?_⟩
    dsimp only at h
    split at h
    · rename_i hand
      split at h
      · rename_i c cs hget
        exact ⟨_, rfl, rfl, .and hand hget, forM_ok h⟩
      · cases h
    · rename_i hand
      split at h
      · rename_i hor
        split at h
        · rename_i c cs hget
          exact ⟨_, rfl, rfl, .or hand hor hget, forM_ok h⟩
        · cases h
      · rename_i hor
        split at h
        · rename_i hnot
          exact ⟨_, rfl, rfl, .not hand hor hnot, List.forall_mem_singleton.mpr h⟩
        · rename_i hnot
          split at h
          · rename_i hfn
            obtain ⟨name, args, hnode⟩ := isNode_of_validateFn hand hor hnot hfn h
            exact ⟨_, rfl, rfl, hnode, fun _ hq => absurd hq List.not_mem_nil⟩
          · rename_i hfn
            split at h
            · rename_i hop
              obtain ⟨name, left, right, hnode⟩ := isNode_of_validateOp hand hor hnot hfn hop h
              exact ⟨_, rfl, rfl, hnode, fun _ hq => absurd hq List.not_mem_nil⟩
            · cases h
  · cases h

theorem IsNode.evaluateAt (h : IsNode fields n) (now : Int) (ctx : EvaluationContext)
    (levels : Nat) :
    Rules.evaluateAt now ctx (levels + 1) (.object fields) = n.evaluateAt now ctx levels := by
  rw [Rules.evaluateAt]
  cases h with
  | and hand hget => simp [JsValue.isObject, hand, hget, Node.evaluateAt]
  | or hand hor hget => simp [JsValue.isObject, hand, hor, hget, Node.evaluateAt]
  | not hand hor hnot => simp [JsValue.isObject, hand, hor, hnot, Node.evaluateAt]
  | fn hand hor hnot hfn hget hknown hargs =>
    simp [JsValue.isObject, hand, hor, hnot, hfn, hget, hargs, Node.evaluateAt]
  | op hand hor hnot hfn hop hget hknown =>
    simp [JsValue.isObject, hand, hor, hnot, hfn, hop, hget, Node.evaluateAt]

theorem IsNode.unique {n' : Node} (h : IsNode fields n) (h' : IsNode fields n') : n = n' := by
  cases h <;> cases h' <;> simp_all

theorem allM_congr (h : ∀ p ∈ ps, f p = g p) : ps.allM f = ps.allM g := by
  induction ps with
  | nil => rfl
  | cons p ps ih =>
    obtain ⟨hp, hps⟩ := List.forall_mem_cons.mp h
    unfold List.allM
    rw [hp, ih hps]

theorem anyM_congr (h : ∀ p ∈ ps, f p = g p) : ps.anyM f = ps.anyM g := by
  induction ps with
  | nil => rfl
  | cons p ps ih =>
    obtain ⟨hp, hps⟩ := List.forall_mem_cons.mp h
    unfold List.anyM
    rw [hp, ih hps]

theorem Node.evaluateAt_congr {now : Int} {ctx : EvaluationContext} {levels' : Nat}
    (h : ∀ q ∈ n.children, Rules.evaluateAt now ctx levels q = Rules.evaluateAt now ctx levels' q) :
    n.evaluateAt now ctx levels = n.evaluateAt now ctx levels' := by
  cases n with
  | and ps => exact allM_congr h
  | or ps => exact anyM_congr h
  | not p => exact congrArg (Except.map fun b => !b) (h p (List.mem_singleton_self p))
  | fn name args => rfl
  | op name left right => rfl

theorem evaluateAt_of_le (now : Int) (ctx : EvaluationContext) {levels' : Nat}
    (h : validateAt levels p = .ok ()) (hle : levels ≤ levels') :
    evaluateAt now ctx levels' p = evaluateAt now ctx levels p := by
  induction levels generalizing p levels' with
  | zero =>
    obtain ⟨below, _, _, hlevels, _⟩ := isNode_of_validateAt h
    exact absurd hlevels (Nat.succ_ne_zero below).symm
  | succ levels ih =>
    obtain ⟨below, fields, n, hlevels, rfl, hnode, hchildren⟩ := isNode_of_validateAt h
    obtain rfl : levels = below := Nat.succ.inj hlevels
    obtain ⟨below', rfl⟩ := Nat.exists_eq_add_of_lt hle
    rw [show levels + below' + 1 = (levels + below') + 1 from rfl] at hle ⊢
    rw [hnode.evaluateAt, hnode.evaluateAt]
    exact Node.evaluateAt_congr fun q hq => ih (hchildren q hq) (Nat.le_add_right _ _)

end

/-! ## Leaves -/

/-- Whether an evaluation of several predicates goes on after this result. -/
def goesOn (while' : Bool) : Except PredicateError Bool → Bool
  | .ok b => b == while'
  | .error _ => false

/-- The leaves that an evaluation comes to, which ends an `and` with the first predicate that is not
true, and an `or` with the first that is not false. -/
def visitedAt (now : Int) (ctx : EvaluationContext) : Nat → JsValue → List JsValue
  | 0, _ => []
  | levels + 1, p =>
      if p.hasKey "and" then
        match p.get "and" with
        | .array ps =>
            (untilHit (fun q => !goesOn true (evaluateAt now ctx levels q)) ps).flatMap
              (visitedAt now ctx levels)
        | _ => []
      else if p.hasKey "or" then
        match p.get "or" with
        | .array ps =>
            (untilHit (fun q => !goesOn false (evaluateAt now ctx levels q)) ps).flatMap
              (visitedAt now ctx levels)
        | _ => []
      else if p.hasKey "not" then visitedAt now ctx levels (p.get "not")
      else [p]

def visited (now : Int) (ctx : EvaluationContext) (predicate : JsValue) : List JsValue :=
  visitedAt now ctx 11 predicate

def callOf (leaf : JsValue) : Option (String × List JsValue) :=
  if leaf.hasKey "fn" then
    match leaf.get "fn", leaf.get "args" with
    | .string fn, .array args => some (fn, args)
    | _, _ => none
  else none

def evalLeaf (now : Int) (ctx : EvaluationContext) (leaf : JsValue) : Except PredicateError Bool :=
  match callOf leaf with
  | some (fn, args) => evalFn now ctx (.string fn) args
  | none => evalOp ctx (leaf.get "op") (leaf.get "left") (leaf.get "right")

/-- The values that a leaf takes the text or the number of. -/
def leafConversions (now : Int) (ctx : EvaluationContext) (leaf : JsValue) : List JsValue :=
  match callOf leaf with
  | some (fn, args) => fnConversions now ctx (.string fn) args
  | none => opConversions ctx (leaf.get "op") (leaf.get "left") (leaf.get "right")

inductive Lookup where
  | orgDescendants (root : JsValue)
  | inBusinessHours (at' calendarId : JsValue)

def fnLookup (ctx : EvaluationContext) (fn : String) (rawArgs : List JsValue) : Option Lookup :=
  let args := rawArgs.map (resolveRef ctx)
  let arg (i : Nat) : JsValue := args.getD i .undefined
  if !(arg 0).truthy || !(arg 1).truthy then none
  else if fn = "in_business_hours" then some (.inBusinessHours (arg 0) (arg 1))
  else if fn = "in_org_descendants" then some (.orgDescendants (arg 1))
  else none

def leafLookup (ctx : EvaluationContext) (leaf : JsValue) : Option Lookup :=
  (callOf leaf).bind fun call => fnLookup ctx call.1 call.2

def lookups (now : Int) (ctx : EvaluationContext) (predicate : JsValue) : List Lookup :=
  (visited now ctx predicate).filterMap (leafLookup ctx)

/-- `q` is a checked node, at `p` or below it. -/
inductive Within (q : JsValue) : JsValue → Prop where
  | here {fields n} (heq : q = .object fields) (hnode : IsNode fields n) : Within q (.object fields)
  | child {fields n p} (hnode : IsNode fields n) (hp : p ∈ n.children) (h : Within q p) :
      Within q (.object fields)

/-- `leaf` is a checked node without predicates below it. -/
def IsLeaf (leaf : JsValue) : Prop := ∃ fields n, leaf = .object fields ∧ IsNode fields n ∧ n.IsLeaf

/-- The lookup does not come upon an inherited property of the table. -/
def Lookup.ownOrAbsent (ctx : EvaluationContext) : Lookup → Prop
  | .orgDescendants root =>
      JsValue.isInherited root.toStr = true →
        (ctx.resolved.orgDescendants.lookup root.toStr).isSome = true
  | .inBusinessHours .. => True

section

variable {now : Int} {ctx : EvaluationContext} {levels : Nat} {p : JsValue}
  {fields : List (String × JsValue)} {n : Node} {f : JsValue → Except PredicateError Bool}
  {x : Except PredicateError Bool}

theorem allM_ok_iff {ps : List JsValue} : (∃ b, ps.allM f = .ok b) ↔
      ∀ p ∈ untilHit (fun p => !goesOn true (f p)) ps, ∃ b, f p = .ok b := by
  induction ps with
  | nil => exact iff_of_true ⟨true, rfl⟩ fun _ hp => absurd hp List.not_mem_nil
  | cons p ps ih =>
    unfold List.allM untilHit
    rw [List.forall_mem_cons]
    cases hp : f p with
    | error e => simp [bind, Except.bind]
    | ok b =>
      cases b with
      | true => simpa [bind, Except.bind, goesOn] using ih
      | false => simp [bind, Except.bind, pure, Except.pure, goesOn]

theorem anyM_ok_iff {ps : List JsValue} : (∃ b, ps.anyM f = .ok b) ↔
      ∀ p ∈ untilHit (fun p => !goesOn false (f p)) ps, ∃ b, f p = .ok b := by
  induction ps with
  | nil => exact iff_of_true ⟨false, rfl⟩ fun _ hp => absurd hp List.not_mem_nil
  | cons p ps ih =>
    unfold List.anyM untilHit
    rw [List.forall_mem_cons]
    cases hp : f p with
    | error e => simp [bind, Except.bind]
    | ok b =>
      cases b with
      | true => simp [bind, Except.bind, pure, Except.pure, goesOn]
      | false => simpa [bind, Except.bind, goesOn] using ih

theorem mem_of_mem_untilHit {hit : JsValue → Bool} {x : JsValue} {xs : List JsValue}
    (h : x ∈ untilHit hit xs) : x ∈ xs := by
  induction xs with
  | nil => exact h
  | cons y ys ih =>
    unfold untilHit at h
    rcases List.mem_cons.mp h with rfl | hrest
    · exact List.mem_cons_self
    · split at hrest
      · exact absurd hrest List.not_mem_nil
      · exact List.mem_cons_of_mem y (ih hrest)

theorem IsNode.visitedAt (h : IsNode fields n) (now : Int) (ctx : EvaluationContext)
    (levels : Nat) :
    Rules.visitedAt now ctx (levels + 1) (.object fields) =
      match n with
      | .and ps =>
          (untilHit (fun q => !goesOn true (Rules.evaluateAt now ctx levels q)) ps).flatMap
            (Rules.visitedAt now ctx levels)
      | .or ps =>
          (untilHit (fun q => !goesOn false (Rules.evaluateAt now ctx levels q)) ps).flatMap
            (Rules.visitedAt now ctx levels)
      | .not p => Rules.visitedAt now ctx levels p
      | .fn .. | .op .. => [.object fields] := by
  rw [Rules.visitedAt]
  cases h with
  | and hand hget => simp [hand, hget]
  | or hand hor hget => simp [hand, hor, hget]
  | not hand hor hnot => simp [hand, hor, hnot]
  | fn hand hor hnot hfn hget hknown hargs => simp [hand, hor, hnot]
  | op hand hor hnot hfn hop hget hknown => simp [hand, hor, hnot]

theorem map_ok_iff {f : Bool → Bool} : (∃ b, x.map f = .ok b) ↔ ∃ b, x = .ok b := by
  cases x with
  | error e => exact iff_of_false (fun ⟨_, h⟩ => nomatch h) fun ⟨_, h⟩ => nomatch h
  | ok b => exact iff_of_true ⟨f b, rfl⟩ ⟨b, rfl⟩

theorem evaluateAt_ok_iff (h : validateAt levels p = .ok ()) :
    (∃ b, evaluateAt now ctx levels p = .ok b) ↔
      ∀ leaf ∈ visitedAt now ctx levels p, ∃ b, evalLeaf now ctx leaf = .ok b := by
  induction levels generalizing p with
  | zero =>
    obtain ⟨below, _, _, hlevels, _⟩ := isNode_of_validateAt h
    exact absurd hlevels (Nat.succ_ne_zero below).symm
  | succ levels ih =>
    obtain ⟨below, fields, n, hlevels, rfl, hnode, hchildren⟩ := isNode_of_validateAt h
    obtain rfl : levels = below := Nat.succ.inj hlevels
    rw [hnode.evaluateAt, hnode.visitedAt]
    cases hnode with
    | and hand hget =>
      refine Iff.trans allM_ok_iff ?_
      rw [List.forall_mem_flatMap]
      exact forall₂_congr fun q hq => ih (hchildren q (mem_of_mem_untilHit hq))
    | or hand hor hget =>
      refine Iff.trans anyM_ok_iff ?_
      rw [List.forall_mem_flatMap]
      exact forall₂_congr fun q hq => ih (hchildren q (mem_of_mem_untilHit hq))
    | not hand hor hnot =>
      rw [← ih (hchildren _ (List.mem_singleton_self _))]
      exact map_ok_iff
    | fn hand hor hnot hfn hget hknown hargs =>
      rw [List.forall_mem_singleton, evalLeaf, callOf, if_pos hfn, hget, hargs]
      rfl
    | op hand hor hnot hfn hop hget hknown =>
      rw [List.forall_mem_singleton, evalLeaf, callOf, if_neg hfn, hget]
      rfl

theorem within_of_visitedAt (h : validateAt levels p = .ok ()) {leaf : JsValue}
    (hleaf : leaf ∈ visitedAt now ctx levels p) : Within leaf p ∧ IsLeaf leaf := by
  induction levels generalizing p with
  | zero => exact absurd hleaf List.not_mem_nil
  | succ levels ih =>
    obtain ⟨below, fields, n, hlevels, rfl, hnode, hchildren⟩ := isNode_of_validateAt h
    obtain rfl : levels = below := Nat.succ.inj hlevels
    have hchild : ∀ q ∈ n.children, leaf ∈ visitedAt now ctx levels q →
        Within leaf (.object fields) ∧ IsLeaf leaf := by
      intro q hq hmem
      obtain ⟨hwithin, hisLeaf⟩ := ih (hchildren q hq) hmem
      exact ⟨.child hnode hq hwithin, hisLeaf⟩
    rw [hnode.visitedAt] at hleaf
    cases n with
    | and ps =>
      obtain ⟨q, hq, hmem⟩ := List.mem_flatMap.mp hleaf
      exact hchild q (mem_of_mem_untilHit hq) hmem
    | or ps =>
      obtain ⟨q, hq, hmem⟩ := List.mem_flatMap.mp hleaf
      exact hchild q (mem_of_mem_untilHit hq) hmem
    | not q => exact hchild q (List.mem_singleton_self q) hleaf
    | fn name args =>
      have heq := List.mem_singleton.mp hleaf
      exact ⟨.here heq hnode, fields, _, heq, hnode, trivial⟩
    | op name left right =>
      have heq := List.mem_singleton.mp hleaf
      exact ⟨.here heq hnode, fields, _, heq, hnode, trivial⟩

theorem Within.validateAt {q : JsValue} (hq : Within q p)
    (h : Rules.validateAt levels p = .ok ()) :
    ∃ levels' ≤ levels, Rules.validateAt levels' q = .ok () := by
  induction hq generalizing levels with
  | here heq hnode => exact ⟨levels, Nat.le_refl _, heq ▸ h⟩
  | child hnode hp hwithin ih =>
    obtain ⟨below, fields, n, rfl, heq, hnode', hchildren⟩ := isNode_of_validateAt h
    cases heq
    rw [hnode.unique hnode'] at hp
    obtain ⟨levels', hle, hvalid⟩ := ih (hchildren _ hp)
    exact ⟨levels', Nat.le_succ_of_le hle, hvalid⟩

theorem converting_ok_iff {vs : List JsValue} : (∃ b, converting vs x = .ok b) ↔
      (∀ v ∈ vs, v.convertible = true) ∧ ∃ b, x = .ok b := by
  unfold converting
  split
  · rename_i hall
    rw [and_iff_right (List.all_eq_true.mp hall)]
  · rename_i hall
    refine iff_of_false (fun ⟨_, h⟩ => nomatch h) fun h => hall (List.all_eq_true.mpr h.1)

variable {name : String}

theorem evalOp_ok_iff (hknown : name ∈ knownOps) (left right : JsValue) :
    (∃ b, evalOp ctx (.string name) left right = .ok b) ↔
      ∀ v ∈ opConversions ctx (.string name) left right, v.convertible = true := by
  unfold evalOp
  rw [converting_ok_iff, and_iff_left]
  simp only [knownOps, List.mem_cons, List.not_mem_nil, or_false] at hknown
  rcases hknown with rfl | rfl | rfl | rfl | rfl | rfl | rfl | rfl
  case inr.inr.inl =>
    generalize resolveRef ctx right = r
    cases r <;> exact ⟨_, rfl⟩
  case inr.inr.inr.inr.inr.inr.inr =>
    generalize resolveRef ctx left = l
    generalize resolveRef ctx right = r
    cases l <;> cases r <;> exact ⟨_, rfl⟩
  all_goals exact ⟨_, rfl⟩

theorem inOrgDescendants_ok_iff (nodeId root : JsValue) :
    (∃ b, inOrgDescendants ctx nodeId root = .ok b) ↔
      (nodeId.truthy = true → root.truthy = true → (Lookup.orgDescendants root).ownOrAbsent ctx) := by
  show _ ↔ (_ → _ → JsValue.isInherited root.toStr = true →
    (ctx.resolved.orgDescendants.lookup root.toStr).isSome = true)
  unfold inOrgDescendants
  cases nodeId.truthy with
  | false => exact iff_of_true ⟨false, rfl⟩ nofun
  | true =>
    cases root.truthy with
    | false => exact iff_of_true ⟨false, rfl⟩ nofun
    | true =>
      cases hlookup : ctx.resolved.orgDescendants.lookup root.toStr with
      | some ids =>
        refine iff_of_true ?_ fun _ _ _ => rfl
        cases nodeId <;> exact ⟨_, rfl⟩
      | none =>
        cases hown : JsValue.isInherited root.toStr with
        | false => exact iff_of_true ⟨false, rfl⟩ nofun
        | true => exact iff_of_false (fun ⟨_, h⟩ => nomatch h) fun h => nomatch h rfl rfl rfl

theorem forall_mem_fnLookup_org {P : Lookup → Prop} (args : List JsValue) :
    (∀ l ∈ fnLookup ctx "in_org_descendants" args, P l) ↔
      (((args.map (resolveRef ctx)).getD 0 .undefined).truthy = true →
        ((args.map (resolveRef ctx)).getD 1 .undefined).truthy = true →
        P (.orgDescendants ((args.map (resolveRef ctx)).getD 1 .undefined))) := by
  unfold fnLookup
  dsimp only
  cases ((args.map (resolveRef ctx)).getD 0 .undefined).truthy with
  | false => simp
  | true =>
    cases ((args.map (resolveRef ctx)).getD 1 .undefined).truthy with
    | false => simp
    | true => simp

theorem ownOrAbsent_of_ne (hne : name ≠ "in_org_descendants")
    (args : List JsValue) : ∀ l ∈ fnLookup ctx name args, l.ownOrAbsent ctx := by
  intro l hl
  unfold fnLookup at hl
  dsimp only at hl
  rw [if_neg hne] at hl
  split at hl
  · cases hl
  · split at hl
    · obtain rfl := Option.some.inj hl
      trivial
    · cases hl

/-- A known helper returns when its arguments have texts and its lookup is not of an inherited
property. -/
theorem evalFn_ok_iff (hknown : name ∈ knownFns) (args : List JsValue) :
    (∃ b, evalFn now ctx (.string name) args = .ok b) ↔
      (∀ v ∈ fnConversions now ctx (.string name) args, v.convertible = true) ∧
        ∀ l ∈ fnLookup ctx name args, l.ownOrAbsent ctx := by
  unfold evalFn
  rw [converting_ok_iff]
  refine and_congr_right fun _ => ?_
  simp only [knownFns, List.mem_cons, List.not_mem_nil, or_false] at hknown
  rcases hknown with rfl | rfl | rfl | rfl | rfl | rfl | rfl | rfl | rfl | rfl
  case inr.inl =>
    rw [forall_mem_fnLookup_org]
    exact inOrgDescendants_ok_iff _ _
  case inr.inr.inr.inr.inr.inr.inr.inl =>
    refine iff_of_true ?_ (ownOrAbsent_of_ne (by decide) args)
    dsimp only
    generalize (args.map (resolveRef ctx)).getD 0 .undefined = a
    generalize (args.map (resolveRef ctx)).getD 1 .undefined = b
    cases a <;> cases b <;> exact ⟨_, rfl⟩
  all_goals exact iff_of_true ⟨_, rfl⟩ (ownOrAbsent_of_ne (by decide) args)

theorem evalLeaf_ok_iff {leaf : JsValue} (h : IsLeaf leaf) :
    (∃ b, evalLeaf now ctx leaf = .ok b) ↔
      (∀ v ∈ leafConversions now ctx leaf, v.convertible = true) ∧
        ∀ l ∈ leafLookup ctx leaf, l.ownOrAbsent ctx := by
  obtain ⟨fields, n, rfl, hnode, hleaf⟩ := h
  cases hnode with
  | and hand hget => exact hleaf.elim
  | or hand hor hget => exact hleaf.elim
  | not hand hor hnot => exact hleaf.elim
  | fn hand hor hnot hfn hget hknown hargs =>
    unfold evalLeaf leafConversions leafLookup callOf
    rw [if_pos hfn, hget, hargs]
    exact evalFn_ok_iff hknown _
  | op hand hor hnot hfn hop hget hknown =>
    unfold evalLeaf leafConversions leafLookup callOf
    rw [if_neg hfn, hget]
    exact (evalOp_ok_iff hknown _ _).trans (and_iff_left nofun).symm

end

end Prequest.Rules
