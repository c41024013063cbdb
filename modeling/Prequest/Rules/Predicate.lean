import Mathlib.Data.List.Basic
import Prequest.Lib.JsValue
import Prequest.Lib.Segments

/-!
# The predicates of room rules

The `applies_when` of a rule is a JSON tree of `and`, `or`, `not`, comparisons
(`op`) and helper calls (`fn`). It is evaluated against the requester, the space
and the booking. Two helpers ask the database; their answers are fetched for all
rules of an evaluation before the first of them is evaluated, and are looked up
in `ctx.resolved`.

* `exists_hydrateContextHelpers`: fetching succeeds exactly when every call is answered.
-/

namespace Prequest.Rules

open Prequest.Lib

/-! ## The context -/

structure RequesterContext where
  id : String
  type : Option String := none
  costCenter : Option String := none
  orgNodeId : Option String := none
  roleIds : List String := []
  userId : Option String := none
  deriving DecidableEq, Repr

/-- A space with the ids from itself upwards. -/
structure SpaceWithChain where
  id : String
  type : Option String
  parentId : Option String
  capacity : Option Int
  minAttendees : Option Int
  defaultCalendarId : Option String
  ancestorIds : List String
  deriving DecidableEq, Repr

structure BookingContext where
  startAt : String
  endAt : String
  durationMinutes : Int
  leadTimeMinutes : Int
  attendeeCount : Option Int
  deriving DecidableEq, Repr

/-- The answers of the database that were fetched. -/
structure Resolved where
  orgDescendants : List (String × List String) := []
  /-- The key is `at|calendar_id`. -/
  inBusinessHours : List (String × Bool) := []
  deriving DecidableEq, Repr

structure EvaluationContext where
  resolutionBasisAt : Option String
  requester : RequesterContext
  space : SpaceWithChain
  booking : BookingContext
  permissions : List (String × Bool)
  resolved : Resolved := {}
  resolutionBasisMs : Int
  deriving DecidableEq, Repr

/-- A column that may be `NULL`. -/
def textOrNull : Option String → JsValue
  | some s => .string s
  | none => .null

def numberOrNull : Option Int → JsValue
  | some n => .number n
  | none => .null

def RequesterContext.toValue (r : RequesterContext) : JsValue :=
  .object
    [("id", .string r.id), ("role_ids", .array (r.roleIds.map .string)),
      ("org_node_id", textOrNull r.orgNodeId), ("type", textOrNull r.type),
      ("cost_center", textOrNull r.costCenter), ("user_id", textOrNull r.userId)]

def SpaceWithChain.toValue (s : SpaceWithChain) : JsValue :=
  .object
    [("id", .string s.id), ("type", textOrNull s.type), ("parent_id", textOrNull s.parentId),
      ("capacity", numberOrNull s.capacity), ("min_attendees", numberOrNull s.minAttendees),
      ("default_calendar_id", textOrNull s.defaultCalendarId),
      ("ancestor_ids", .array (s.ancestorIds.map .string))]

def BookingContext.toValue (b : BookingContext) : JsValue :=
  .object
    [("start_at", .string b.startAt), ("end_at", .string b.endAt),
      ("duration_minutes", .number b.durationMinutes),
      ("lead_time_minutes", .number b.leadTimeMinutes),
      ("attendee_count", numberOrNull b.attendeeCount)]

/-- The sets of descendants have no properties of their own. -/
def Resolved.toValue (r : Resolved) : JsValue :=
  .object
    [("org_descendants", .object (r.orgDescendants.map fun p => (p.1, .object []))),
      ("in_business_hours", .object (r.inBusinessHours.map fun p => (p.1, .bool p.2)))]

def EvaluationContext.toValue (ctx : EvaluationContext) : JsValue :=
  .object
    [("resolution_basis_at", (ctx.resolutionBasisAt.map .string).getD .undefined),
      ("requester", ctx.requester.toValue), ("space", ctx.space.toValue),
      ("booking", ctx.booking.toValue),
      ("permissions", .object (ctx.permissions.map fun p => (p.1, .bool p.2))),
      ("resolved", ctx.resolved.toValue), ("resolution_basis_ms", .number ctx.resolutionBasisMs)]

def followPath (v : JsValue) : List String → JsValue
  | [] => v
  | part :: parts => if v.isObject then followPath (v.get part) parts else .undefined

/-- A text that starts with `$.` is a reference, everything else is itself. -/
def resolveRef (ctx : EvaluationContext) : JsValue → JsValue
  | .string s =>
      if s.startsWith "$." then followPath ctx.toValue ((s.drop 2).toString.splitOn ".")
      else .string s
  | v => v

/-! ## Evaluation -/

inductive PredicateError where
  /-- `room_rule.invalid_predicate`. -/
  | invalidPredicate (detail : String)
  | typeError (message : String)
  deriving DecidableEq, Repr

def looseEq : JsValue → JsValue → Bool
  | .undefined, .undefined | .null, .null => true
  | a, b => !a.isNullish && !b.isNullish && a.toStr == b.toStr

/-- `Date.parse`, of texts only. -/
def dateOf : JsValue → Option Int
  | .string s => dateParse s
  | _ => none

/-- `String(v ?? '')`. -/
def textOf (v : JsValue) : String := if v.isNullish then "" else v.toStr

/-- `a - b`, unless one of them is `NaN`. -/
def minus (a b : Option Rat) : Option Rat := a.bind fun a => b.map fun b => a - b

def isNumber : JsValue → Bool
  | .number _ => true
  | _ => false

/-- The sign of the result is the order; `none` compares as false. -/
def cmp (a b : JsValue) : Option Rat :=
  if isNumber a || isNumber b then minus a.toNumber b.toNumber
  else match dateOf a, dateOf b with
    | some s, some t => some (s - t)
    | _, _ => some (if textOf a < textOf b then -1 else if textOf b < textOf a then 1 else 0)

/-- `left.includes(right)`, for texts. -/
def includesText (left right : String) : Bool := (left.splitOn right).length != 1 || right == ""

/-- The elements up to the first hit of a search. -/
def untilHit (hit : JsValue → Bool) : List JsValue → List JsValue
  | [] => []
  | x :: xs => x :: if hit x then [] else untilHit hit xs

/-- The values that `looseEq` takes the text of. -/
def looseEqTexts (a b : JsValue) : List JsValue := if a.isNullish || b.isNullish then [] else [a, b]

/-- The same for the search of an array. -/
def someTexts (v : JsValue) (xs : List JsValue) : List JsValue :=
  (untilHit (fun x => looseEq x v) xs).flatMap fun x => looseEqTexts x v

def sameOperand : JsValue → JsValue → Bool
  | .string s, .string t => s == t
  | _, _ => false

/-- The values that an operator takes the text or the number of, up to the first that has none. -/
def opConversions (ctx : EvaluationContext) (op left right : JsValue) : List JsValue :=
  let same := sameOperand left right
  let left := resolveRef ctx left
  let right := resolveRef ctx right
  match op with
  | .string "eq" | .string "ne" => if same then [] else looseEqTexts left right
  | .string "in" =>
      match right with
      | .array xs => someTexts left xs
      | _ => []
  | .string "gt" | .string "gte" | .string "lt" | .string "lte" => [left, right]
  | .string "contains" =>
      match left with
      | .array xs => someTexts right xs
      | _ => []
  | _ => []

/-- Throw unless all values have a text. -/
def converting (vs : List JsValue) (result : Except PredicateError Bool) :
    Except PredicateError Bool :=
  if vs.all JsValue.convertible then result
  else .error (.typeError "Cannot convert object to primitive value")

def evalOp (ctx : EvaluationContext) (op : JsValue) (left right : JsValue) :
    Except PredicateError Bool :=
  converting (opConversions ctx op left right) <|
  let left := resolveRef ctx left
  let right := resolveRef ctx right
  match op with
  | .string "eq" => .ok (looseEq left right)
  | .string "ne" => .ok (!looseEq left right)
  | .string "in" =>
      match right with
      | .array xs => .ok (xs.any fun v => looseEq v left)
      | _ => .ok false
  | .string "gt" => .ok ((cmp left right).any fun d => decide (0 < d))
  | .string "gte" => .ok ((cmp left right).any fun d => decide (0 ≤ d))
  | .string "lt" => .ok ((cmp left right).any fun d => decide (d < 0))
  | .string "lte" => .ok ((cmp left right).any fun d => decide (d ≤ 0))
  | .string "contains" =>
      match left, right with
      | .array xs, v => .ok (xs.any fun x => looseEq x v)
      | .string s, .string t => .ok (includesText s t)
      | _, _ => .ok false
  | op => .error (.invalidPredicate ("unknown op: " ++ op.toStr))

/-- The time the leads are counted from. -/
def basisNowMs (now : Int) (ctx : EvaluationContext) : Int :=
  (ctx.resolutionBasisAt.bind dateParse).getD now

def minutesBetween (start finish : Option Int) : Option Rat :=
  minus (finish.map Int.cast) (start.map Int.cast) |>.map (· / 60000)

/-- A comparison in which `NaN` is false. -/
def holds (rel : Rat → Rat → Bool) (a b : Option Rat) : Bool :=
  match a, b with
  | some a, some b => rel a b
  | _, _ => false

def lessThan (a b : Rat) : Bool := decide (a < b)

def greaterThan (a b : Rat) : Bool := decide (b < a)

/-- The values that a helper takes the text or the number of, up to the first that has none. -/
def fnConversions (now : Int) (ctx : EvaluationContext) (fn : JsValue) (rawArgs : List JsValue) :
    List JsValue :=
  let args := rawArgs.map (resolveRef ctx)
  let arg (i : Nat) : JsValue := args.getD i .undefined
  let duration := minutesBetween (dateParse (arg 0).toStr) (dateParse (arg 1).toStr)
  let lead := minutesBetween (some (basisNowMs now ctx)) (dateParse (arg 0).toStr)
  match fn with
  | .string "in_business_hours" =>
      if (arg 0).truthy && (arg 1).truthy then [arg 0, arg 1] else []
  | .string "in_org_descendants" => if (arg 0).truthy && (arg 1).truthy then [arg 1] else []
  | .string "duration_minutes_lt" | .string "duration_minutes_gt" =>
      [arg 1, arg 0] ++ if duration.isSome then [arg 2] else []
  | .string "lead_minutes_lt" | .string "lead_minutes_gt" =>
      [arg 0] ++ if lead.isSome then [arg 1] else []
  | .string "has_permission" => [arg 0]
  | .string "array_intersects" =>
      match arg 0, arg 1 with
      | .array a, .array b =>
          b ++ untilHit (fun v => (b.map JsValue.toStr).contains v.toStr) a
      | _, _ => []
  | .string "attendees_over_capacity_factor" =>
      if (arg 0).isNullish || (arg 1).isNullish then [] else [arg 0, arg 1, arg 2]
  | .string "attendees_below_min" =>
      if (arg 0).isNullish || (arg 1).isNullish then [] else [arg 0, arg 1]
  | _ => []

def inOrgDescendants (ctx : EvaluationContext) (nodeId root : JsValue) :
    Except PredicateError Bool :=
  if !nodeId.truthy || !root.truthy then .ok false
  else match ctx.resolved.orgDescendants.lookup root.toStr with
    | some ids =>
        match nodeId with
        | .string nodeId => .ok (ids.contains nodeId)
        | _ => .ok false
    | none =>
        -- The table has the inherited properties of an object, which are not sets.
        if JsValue.isInherited root.toStr then .error (.typeError "set.has is not a function")
        else .ok false

def evalFn (now : Int) (ctx : EvaluationContext) (fn : JsValue) (rawArgs : List JsValue) :
    Except PredicateError Bool :=
  converting (fnConversions now ctx fn rawArgs) <|
  let args := rawArgs.map (resolveRef ctx)
  let arg (i : Nat) : JsValue := args.getD i .undefined
  let duration := minutesBetween (dateParse (arg 0).toStr) (dateParse (arg 1).toStr)
  let lead := minutesBetween (some (basisNowMs now ctx)) (dateParse (arg 0).toStr)
  match fn with
  | .string "in_business_hours" =>
      .ok ((arg 0).truthy && (arg 1).truthy &&
        (ctx.resolved.inBusinessHours.lookup ((arg 0).toStr ++ "|" ++ (arg 1).toStr)).getD false)
  | .string "in_org_descendants" => inOrgDescendants ctx (arg 0) (arg 1)
  | .string "duration_minutes_lt" => .ok (holds lessThan duration (arg 2).toNumber)
  | .string "duration_minutes_gt" => .ok (holds greaterThan duration (arg 2).toNumber)
  | .string "lead_minutes_lt" => .ok (holds lessThan lead (arg 1).toNumber)
  | .string "lead_minutes_gt" => .ok (holds greaterThan lead (arg 1).toNumber)
  | .string "has_permission" =>
      .ok ((ctx.permissions.lookup (arg 0).toStr).getD (JsValue.isInherited (arg 0).toStr))
  | .string "array_intersects" =>
      match arg 0, arg 1 with
      | .array a, .array b => .ok (a.any fun v => (b.map JsValue.toStr).contains v.toStr)
      | _, _ => .ok false
  | .string "attendees_over_capacity_factor" =>
      .ok (!(arg 0).isNullish && !(arg 1).isNullish &&
        holds greaterThan (arg 0).toNumber
          ((arg 1).toNumber.bind fun cap => (arg 2).toNumber.map fun factor => cap * factor))
  | .string "attendees_below_min" =>
      .ok (!(arg 0).isNullish && !(arg 1).isNullish &&
        holds lessThan (arg 0).toNumber (arg 1).toNumber)
  | fn => .error (.invalidPredicate ("unknown fn: " ++ fn.toStr))

/-- `Object.keys(v)`. -/
def objectKeys : JsValue → List String
  | .object fields => fields.map Prod.fst
  | .array xs => (List.range xs.length).map toString
  | _ => []

/-- `evaluate`, with the levels that may still be entered. -/
def evaluateAt (now : Int) (ctx : EvaluationContext) : Nat → JsValue → Except PredicateError Bool
  | 0, _ => .error (.invalidPredicate "predicate nesting too deep")
  | levels + 1, p =>
      if !p.isObject then .error (.invalidPredicate "predicate must be an object")
      else if p.hasKey "and" then
        match p.get "and" with
        | .array ps => ps.allM (evaluateAt now ctx levels)
        | _ => .error (.invalidPredicate "and must be an array")
      else if p.hasKey "or" then
        match p.get "or" with
        | .array ps => ps.anyM (evaluateAt now ctx levels)
        | _ => .error (.invalidPredicate "or must be an array")
      else if p.hasKey "not" then
        (evaluateAt now ctx levels (p.get "not")).map fun b => !b
      else if p.hasKey "fn" then
        match p.get "args" with
        | .array args => evalFn now ctx (p.get "fn") args
        | .undefined | .null => evalFn now ctx (p.get "fn") []
        | _ => .error (.typeError "rawArgs.map is not a function")
      else if p.hasKey "op" then evalOp ctx (p.get "op") (p.get "left") (p.get "right")
      else .error (.invalidPredicate ("predicate must be one of and|or|not|fn|op (got keys: " ++
        ",".intercalate (objectKeys p) ++ ")"))

/-- `evaluate(predicate, ctx)`. The depths 0 to 10 may be entered. -/
def evaluate (now : Int) (ctx : EvaluationContext) (predicate : JsValue) :
    Except PredicateError Bool :=
  evaluateAt now ctx 11 predicate

/-! ## Fetched answers -/

inductive HelperCall where
  | orgNodeDescendants (root : String)
  /-- The key is `at|calendar_id`. -/
  | inBusinessHours (key : String)
  deriving DecidableEq, Repr

/-- The call that a node asks for with its own `fn`. -/
def ownCall (ctx : EvaluationContext) (p : JsValue) : List HelperCall :=
  match p.get "fn", p.get "args" with
  | .string fn, .array rawArgs =>
      let args := rawArgs.map (resolveRef ctx)
      if fn = "in_org_descendants" then
        match args.getD 1 .undefined with
        | .string root => [.orgNodeDescendants root]
        | _ => []
      else if fn = "in_business_hours" then
        match args.getD 0 .undefined, args.getD 1 .undefined with
        | .string at', .string cal => [.inBusinessHours (at' ++ "|" ++ cal)]
        | _, _ => []
      else []
  | _, _ => []

mutual

/-- `visit`. -/
def helperCalls (ctx : EvaluationContext) : JsValue → List HelperCall
  | .object fields => fieldCalls ctx fields ++ ownCall ctx (.object fields)
  | _ => []

def fieldCalls (ctx : EvaluationContext) : List (String × JsValue) → List HelperCall
  | [] => []
  | (k, v) :: fields =>
      (if k = "and" ∨ k = "or" then elementCalls ctx v
        else if k = "not" then helperCalls ctx v
        else []) ++ fieldCalls ctx fields

def elementCalls (ctx : EvaluationContext) : JsValue → List HelperCall
  | .array xs => listCalls ctx xs
  | _ => []

def listCalls (ctx : EvaluationContext) : List JsValue → List HelperCall
  | [] => []
  | x :: xs => helperCalls ctx x ++ listCalls ctx xs

end

/-- The functions of the database that predicates call. -/
structure Helpers where
  orgNodeDescendants : String → Except String (List String)
  inBusinessHours : String → String → Except String Bool

inductive HydrateError where
  /-- `room_rule.org_descendants_resolve_failed`. -/
  | orgDescendantsResolveFailed (root : String)
  /-- `room_rule.business_hours_resolve_failed`. -/
  | businessHoursResolveFailed (key : String)
  deriving DecidableEq, Repr

/-- The two parts of `at|calendar_id`. -/
def splitKey (key : String) : String × String :=
  match segments '|' key with
  | at' :: cal :: _ => (at', cal)
  | _ => (key, "")

def Resolved.has (resolved : Resolved) : HelperCall → Bool
  | .orgNodeDescendants root => (resolved.orgDescendants.lookup root).isSome
  | .inBusinessHours key => (resolved.inBusinessHours.lookup key).isSome

/-- Ask the database and enter its answer. -/
def fetchCall (helpers : Helpers) (resolved : Resolved) : HelperCall →
    Except HydrateError Resolved
  | .orgNodeDescendants root =>
      match helpers.orgNodeDescendants root with
      | .error _ => .error (.orgDescendantsResolveFailed root)
      | .ok ids => .ok
          { resolved with
            orgDescendants := (root, ids.filter (· ≠ "")) :: resolved.orgDescendants }
  | .inBusinessHours key =>
      match helpers.inBusinessHours (splitKey key).1 (splitKey key).2 with
      | .error _ => .error (.businessHoursResolveFailed key)
      | .ok open' => .ok
          { resolved with inBusinessHours := (key, open') :: resolved.inBusinessHours }

def HelperCall.isInherited : HelperCall → Bool
  | .orgNodeDescendants root => JsValue.isInherited root
  | .inBusinessHours _ => false

/-- A call that was answered is not made again. -/
def hydrateCall (helpers : Helpers) (resolved : Resolved) (c : HelperCall) :
    Except HydrateError Resolved :=
  if c.isInherited || resolved.has c then .ok resolved else fetchCall helpers resolved c

def HelperCall.isOrg : HelperCall → Bool
  | .orgNodeDescendants _ => true
  | .inBusinessHours _ => false

/-- The calls of a list of predicates, those for org nodes first. -/
def hydrateCalls (predicates : List JsValue) (ctx : EvaluationContext) : List HelperCall :=
  let calls := predicates.flatMap (helperCalls ctx)
  calls.filter HelperCall.isOrg ++ calls.filter fun c => !c.isOrg

/-- `hydrateContextHelpers`. -/
def hydrateContextHelpers (helpers : Helpers) (predicates : List JsValue)
    (ctx : EvaluationContext) : Except HydrateError EvaluationContext :=
  ((hydrateCalls predicates ctx).foldlM (hydrateCall helpers) ctx.resolved).map fun resolved =>
    { ctx with resolved := resolved }

/-! ## When fetching succeeds -/

def Helpers.answers (helpers : Helpers) : HelperCall → Bool
  | .orgNodeDescendants root =>
      JsValue.isInherited root || (helpers.orgNodeDescendants root).isOk
  | .inBusinessHours key => (helpers.inBusinessHours (splitKey key).1 (splitKey key).2).isOk

section

variable {helpers : Helpers} {predicates : List JsValue} {ctx : EvaluationContext} {c : HelperCall}

theorem fetchCall_ok {resolved : Resolved} (hown : ¬c.isInherited = true)
    (h : helpers.answers c = true) :
    ∃ resolved', fetchCall helpers resolved c = .ok resolved' ∧
      ∀ c', resolved'.has c' = true ↔ resolved.has c' = true ∨ c' = c := by
  cases c with
  | orgNodeDescendants root =>
    change ¬JsValue.isInherited root = true at hown
    cases hcall : helpers.orgNodeDescendants root with
    | error e => simp [Helpers.answers, hown, hcall, Except.isOk, Except.toBool] at h
    | ok ids =>
      refine ⟨_, by rw [fetchCall, hcall], fun c' => ?_⟩
      cases c' with
      | orgNodeDescendants root' =>
        simp only [Resolved.has, List.lookup_cons, HelperCall.orgNodeDescendants.injEq]
        by_cases heq : root' = root
        · simp [heq]
        · simp [heq, beq_false_of_ne heq]
      | inBusinessHours key => simp [Resolved.has]
  | inBusinessHours key =>
    cases hcall : helpers.inBusinessHours (splitKey key).1 (splitKey key).2 with
    | error e => simp [Helpers.answers, hcall, Except.isOk, Except.toBool] at h
    | ok open' =>
      refine ⟨_, by rw [fetchCall, hcall], fun c' => ?_⟩
      cases c' with
      | orgNodeDescendants root => simp [Resolved.has]
      | inBusinessHours key' =>
        simp only [Resolved.has, List.lookup_cons, HelperCall.inBusinessHours.injEq]
        by_cases heq : key' = key
        · simp [heq]
        · simp [heq, beq_false_of_ne heq]

theorem fetchCall_error {resolved : Resolved} (h : ¬helpers.answers c = true) :
    ∃ e, fetchCall helpers resolved c = .error e := by
  cases c with
  | orgNodeDescendants root =>
    cases hcall : helpers.orgNodeDescendants root with
    | error e => exact ⟨_, by rw [fetchCall, hcall]⟩
    | ok ids => simp [Helpers.answers, hcall, Except.isOk, Except.toBool] at h
  | inBusinessHours key =>
    cases hcall : helpers.inBusinessHours (splitKey key).1 (splitKey key).2 with
    | error e => exact ⟨_, by rw [fetchCall, hcall]⟩
    | ok open' => simp [Helpers.answers, hcall, Except.isOk, Except.toBool] at h

/-- A call that needs no answer, or whose answer is there or can be fetched, succeeds. Only its own
answer is added. -/
theorem hydrateCall_ok {resolved : Resolved}
    (h : resolved.has c = true ∨ helpers.answers c = true) :
    ∃ resolved', hydrateCall helpers resolved c = .ok resolved' ∧
      (∀ c', resolved'.has c' = true → resolved.has c' = true ∨ c' = c) ∧
      ∀ c', resolved.has c' = true → resolved'.has c' = true := by
  unfold hydrateCall
  by_cases hskip : (c.isInherited || resolved.has c) = true
  · rw [if_pos hskip]
    exact ⟨resolved, rfl, fun _ => Or.inl, fun _ h => h⟩
  · rw [if_neg hskip]
    rw [Bool.or_eq_true, not_or] at hskip
    obtain ⟨resolved', hfetch, hhas⟩ := fetchCall_ok hskip.1 (h.resolve_left hskip.2)
    exact ⟨resolved', hfetch, fun c' => (hhas c').mp, fun c' h => (hhas c').mpr (Or.inl h)⟩

theorem hydrateCall_error {resolved : Resolved} (hhas : ¬resolved.has c = true)
    (hanswers : ¬helpers.answers c = true) : ∃ e, hydrateCall helpers resolved c = .error e := by
  have hown : c.isInherited = false := by
    cases c with
    | orgNodeDescendants root =>
      simp only [Helpers.answers, Bool.or_eq_true, not_or] at hanswers
      exact Bool.eq_false_iff.mpr hanswers.1
    | inBusinessHours key => rfl
  unfold hydrateCall
  rw [hown, Bool.false_or, if_neg hhas]
  exact fetchCall_error hanswers

theorem exists_foldlM_hydrateCall {calls : List HelperCall} {resolved : Resolved} :
    (∃ resolved', calls.foldlM (hydrateCall helpers) resolved = .ok resolved') ↔
      ∀ c ∈ calls, resolved.has c = true ∨ helpers.answers c = true := by
  induction calls generalizing resolved with
  | nil => simp [pure, Except.pure]
  | cons c calls ih =>
    rw [List.foldlM_cons, List.forall_mem_cons]
    by_cases hc : resolved.has c = true ∨ helpers.answers c = true
    · obtain ⟨resolved', hstep, honly, hkept⟩ := hydrateCall_ok hc
      show (∃ r, (hydrateCall helpers resolved c).bind _ = .ok r) ↔ _
      rw [hstep]
      simp only [Except.bind]
      rw [ih]
      constructor
      · intro h
        refine ⟨hc, fun c' hc' => ?_⟩
        rcases h c' hc' with hhas | hanswers
        · exact (honly c' hhas).elim Or.inl fun heq => heq ▸ hc
        · exact Or.inr hanswers
      · intro h c' hc'
        exact (h.2 c' hc').imp_left (hkept c')
    · obtain ⟨hhas, hanswers⟩ := not_or.mp hc
      obtain ⟨e, herror⟩ := hydrateCall_error hhas hanswers
      show (∃ r, (hydrateCall helpers resolved c).bind _ = .ok r) ↔ _
      rw [herror]
      simp [Except.bind, hhas, hanswers]

theorem mem_hydrateCalls :
    c ∈ hydrateCalls predicates ctx ↔ ∃ p ∈ predicates, c ∈ helperCalls ctx p := by
  simp only [hydrateCalls, List.mem_append, List.mem_filter, List.mem_flatMap]
  cases c.isOrg <;> simp

theorem exists_hydrateContextHelpers (helpers : Helpers) (predicates : List JsValue)
    (hempty : ctx.resolved = {}) :
    (∃ ctx', hydrateContextHelpers helpers predicates ctx = .ok ctx') ↔
      ∀ p ∈ predicates, ∀ c ∈ helperCalls ctx p, helpers.answers c = true := by
  have hnone : ∀ c, ¬ctx.resolved.has c = true := by
    intro c
    rw [hempty]
    cases c <;> simp [Resolved.has]
  have hfold := @exists_foldlM_hydrateCall helpers (hydrateCalls predicates ctx) ctx.resolved
  unfold hydrateContextHelpers
  cases hresult : (hydrateCalls predicates ctx).foldlM (hydrateCall helpers) ctx.resolved with
  | error e =>
    rw [hresult] at hfold
    refine ⟨fun ⟨_, h⟩ => (nomatch h), fun h => ?_⟩
    obtain ⟨r, hr⟩ := hfold.mpr fun c hc => by
      obtain ⟨p, hp, hcp⟩ := mem_hydrateCalls.mp hc
      exact Or.inr (h p hp c hcp)
    cases hr
  | ok resolved =>
    rw [hresult] at hfold
    refine ⟨fun _ p hp c hc => ?_, fun _ => ⟨_, rfl⟩⟩
    exact (hfold.mp ⟨resolved, rfl⟩ c (mem_hydrateCalls.mpr ⟨p, hp, hc⟩)).resolve_left (hnone c)

end

end Prequest.Rules
