import Mathlib.Data.List.Basic

/-!
# Workflow graphs and their validation

A workflow definition is a graph of typed nodes with a configuration each, and
of edges that may carry a condition. A definition is published only when
`WorkflowValidatorService.validate` finds no error in it.

* `validateNodeConfig`: the checks of one node's configuration.
-/

namespace Prequest.Workflow

/-! ## Configurations -/

inductive Scalar where
  | null
  | bool (b : Bool)
  | num (n : Int)
  | str (s : String)
  deriving DecidableEq, Repr

/-- An entry of an array. -/
inductive Item where
  | scalar (s : Scalar)
  | fields (fs : List (String × Scalar))
  deriving DecidableEq, Repr

/-- A value of a configuration. A key that is absent is `undefined`. -/
inductive Value where
  | scalar (s : Scalar)
  | items (xs : List Item)
  | fields (fs : List (String × Scalar))
  deriving DecidableEq, Repr

/-- `Record<string, unknown>`. -/
abbrev Config := List (String × Value)

def Config.get (c : Config) (k : String) : Option Value := List.lookup k c

/-- `!!v`. -/
def truthy : Option Value → Bool
  | none => false
  | some (.scalar .null) => false
  | some (.scalar (.bool b)) => b
  | some (.scalar (.num n)) => n != 0
  | some (.scalar (.str s)) => s != ""
  | some (.items _) => true
  | some (.fields _) => true

/-- `v as string`, when it is one. -/
def asString : Option Value → Option String
  | some (.scalar (.str s)) => some s
  | _ => none

/-- The characters that `String.prototype.trim` removes. -/
def isTrimmed (c : Char) : Bool :=
  let n := c.toNat
  (9 ≤ n && n ≤ 13) || n == 32 || n == 160 || n == 0x1680 || (0x2000 ≤ n && n ≤ 0x200A) ||
    n == 0x2028 || n == 0x2029 || n == 0x202F || n == 0x205F || n == 0x3000 || n == 0xFEFF

/-- `s.trim().length > 0`. -/
def nonBlank (s : String) : Bool := s.toList.any fun c => !isTrimmed c

/-! ## Graphs -/

inductive NodeType where
  | trigger
  | assign
  | approval
  | notification
  | condition
  | updateTicket
  | createChildTasks
  | waitFor
  | timer
  | httpRequest
  | end'
  | other (name : String)
  deriving DecidableEq, Repr

/-- The `type` of a node as it is stored. -/
def NodeType.name : NodeType → String
  | .trigger => "trigger"
  | .assign => "assign"
  | .approval => "approval"
  | .notification => "notification"
  | .condition => "condition"
  | .updateTicket => "update_ticket"
  | .createChildTasks => "create_child_tasks"
  | .waitFor => "wait_for"
  | .timer => "timer"
  | .httpRequest => "http_request"
  | .end' => "end"
  | .other name => name

structure Node where
  id : String
  type : NodeType
  config : Config := []
  deriving DecidableEq, Repr

structure Edge where
  from' : String
  to' : String
  condition : Option String := none
  deriving DecidableEq, Repr

structure Graph where
  nodes : List Node
  edges : List Edge
  deriving DecidableEq, Repr

/-- `g.edges.filter((e) => e.from === id)`. -/
def Graph.out (g : Graph) (id : String) : List Edge := g.edges.filter fun e => e.from' == id

/-- `graph.nodes.find((n) => n.id === id)`. -/
def Graph.node? (g : Graph) (id : String) : Option Node := g.nodes.find? fun n => n.id == id

/-! ## Validation -/

inductive ErrorCode where
  | noTrigger
  | multipleTriggers
  | noEnd
  | danglingEdgeFrom
  | danglingEdgeTo
  | noOutgoing
  | missingTrueEdge
  | missingFalseEdge
  | missingApprovedEdge
  | missingRejectedEdge
  | unreachable
  | assignTarget
  | approvalApprover
  | notifySubject
  | notifyBody
  | condField
  | condOp
  | updateFields
  | childTasksNonempty
  | waitType
  | timerDelay
  | httpUrl
  | httpMethod
  deriving DecidableEq, Repr

structure ValidationError where
  code : ErrorCode
  message : String
  nodeId : Option String := none
  edgeIndex : Option Nat := none
  deriving DecidableEq, Repr

/-- `if (!ok) errors.push(...)`. -/
def req (ok : Bool) (e : ValidationError) : List ValidationError := if ok then [] else [e]

/-- The title of a task is a string that is not blank. -/
def hasTitle : Item → Bool
  | .scalar _ => false
  | .fields fs =>
      match fs.lookup "title" with
      | some (.str s) => nonBlank s
      | _ => false

def isOneOf (v : Option Value) (options : List String) : Bool :=
  match asString v with
  | some s => options.contains s
  | none => false

/-- `typeof v === 'string' && v.trim().length > 0`. -/
def isText (v : Option Value) : Bool :=
  match asString v with
  | some s => nonBlank s
  | none => false

def validateNodeConfig (n : Node) : List ValidationError :=
  let c := n.config
  let error (code : ErrorCode) (message : String) : ValidationError :=
    { code := code, message := message, nodeId := some n.id }
  match n.type with
  | .assign =>
      req (truthy (c.get "team_id") || truthy (c.get "user_id"))
        (error .assignTarget "Assign requires a team or user")
  | .approval =>
      req (truthy (c.get "approver_person_id") || truthy (c.get "approver_team_id"))
        (error .approvalApprover "Approval requires an approver")
  | .notification =>
      req (isText (c.get "subject")) (error .notifySubject "Notification requires subject") ++
        req (isText (c.get "body")) (error .notifyBody "Notification requires body")
  | .condition =>
      req ((asString (c.get "field")).any fun s => s != "")
          (error .condField "Condition requires a field") ++
        req (isOneOf (c.get "operator") ["equals", "not_equals", "in"])
          (error .condOp "Condition requires an operator")
  | .updateTicket =>
      req (match c.get "fields" with
          | some (.fields fs) => !fs.isEmpty
          | some (.items xs) => !xs.isEmpty
          | _ => false)
        (error .updateFields "Update Ticket requires fields")
  | .createChildTasks =>
      req (match c.get "tasks" with
          | some (.items xs) => !xs.isEmpty && xs.all hasTitle
          | _ => false)
        (error .childTasksNonempty
          "Create Child Tasks requires at least one task with a title")
  | .waitFor =>
      req (isOneOf (c.get "wait_type") ["child_tasks", "status", "event"])
        (error .waitType "Wait For requires a wait_type")
  | .timer =>
      req (match c.get "delay_minutes" with
          | some (.scalar (.num m)) => decide (0 < m)
          | _ => false)
        (error .timerDelay "Timer requires delay_minutes > 0")
  | .httpRequest =>
      req (isText (c.get "url")) (error .httpUrl "HTTP Request requires a URL") ++
        req (isOneOf (c.get "method") ["GET", "POST", "PUT", "PATCH", "DELETE"])
          (error .httpMethod "HTTP Request requires a method")
  | _ => []

/-- The targets that one queue entry adds, in the order of the edges. -/
def discover (edges : List Edge) (cur : String) (seen : List String) : List String :=
  edges.foldl (fun found e =>
    if e.from' == cur && !(seen ++ found).contains e.to' then found ++ [e.to'] else found) []

/-- The loop of `bfs`. Every target is queued once, so that one round for each edge and one for
the start are enough. -/
def bfsLoop (edges : List Edge) : Nat → List String → List String → List String
  | 0, seen, _ => seen
  | _, seen, [] => seen
  | n + 1, seen, cur :: queue =>
      let found := discover edges cur seen
      bfsLoop edges n (seen ++ found) (queue ++ found)

def bfs (start : String) (edges : List Edge) : List String :=
  bfsLoop edges (edges.length + 1) [start] [start]

section

variable (g : Graph)

def validateNode (n : Node) : List ValidationError :=
  let out := g.out n.id
  let error (code : ErrorCode) (message : String) : ValidationError :=
    { code := code, message := message, nodeId := some n.id }
  let labelled (label : String) : Bool := out.any fun e => e.condition == some label
  req (n.type == .end' || !out.isEmpty)
      (error .noOutgoing s!"Node \"{n.type.name}\" has no outgoing edge") ++
    (if n.type == .condition then
      req (labelled "true") (error .missingTrueEdge "Condition needs a \"true\" branch") ++
        req (labelled "false") (error .missingFalseEdge "Condition needs a \"false\" branch")
    else []) ++
    (if n.type == .approval then
      req (labelled "approved")
          (error .missingApprovedEdge "Approval needs an \"approved\" branch") ++
        req (labelled "rejected")
          (error .missingRejectedEdge "Approval needs a \"rejected\" branch")
    else []) ++
    validateNodeConfig n

def validateEdge (e : Edge) (i : Nat) : List ValidationError :=
  req (g.nodes.any fun n => n.id == e.from')
      { code := .danglingEdgeFrom, message := "Edge references unknown node " ++ e.from',
        edgeIndex := some i } ++
    req (g.nodes.any fun n => n.id == e.to')
      { code := .danglingEdgeTo, message := "Edge references unknown node " ++ e.to',
        edgeIndex := some i }

def validateReachable (trigger : Node) : List ValidationError :=
  let reachable := bfs trigger.id g.edges
  g.nodes.flatMap fun n =>
    req (n.type == .trigger || reachable.contains n.id)
      { code := .unreachable, message := s!"Node \"{n.type.name}\" is not reachable from trigger",
        nodeId := some n.id }

def triggers : List Node := g.nodes.filter fun n => n.type == .trigger

/-- `WorkflowValidatorService.validate`. -/
def validate : List ValidationError :=
  req (!(triggers g).isEmpty)
      { code := .noTrigger, message := "Workflow must have a trigger node" } ++
    req (decide ((triggers g).length ≤ 1))
      { code := .multipleTriggers, message := "Workflow must have exactly one trigger" } ++
    req (g.nodes.any fun n => n.type == .end')
      { code := .noEnd, message := "Workflow must have at least one end node" } ++
    (g.edges.zipIdx.flatMap fun p => validateEdge g p.1 p.2) ++
    g.nodes.flatMap (validateNode g) ++
    match triggers g with
    | [trigger] => validateReachable g trigger
    | _ => []

end

/-! ## Accepted graphs -/

/-- `validate(g).ok`. -/
def isAccepted (g : Graph) : Bool := (validate g).isEmpty

@[simp] theorem req_eq_nil {ok : Bool} {e : ValidationError} : req ok e = [] ↔ ok = true := by
  unfold req
  split <;> simp [*]

section

variable {g : Graph}

theorem validate_eq_nil (h : isAccepted g = true) :
    (∃ trigger, triggers g = [trigger]) ∧
      (∀ e ∈ g.edges, ∃ n ∈ g.nodes, n.id = e.to') ∧ ∀ n ∈ g.nodes, validateNode g n = [] := by
  simp only [isAccepted, validate, List.isEmpty_iff, List.append_eq_nil_iff,
    List.flatMap_eq_nil_iff, req_eq_nil, decide_eq_true_eq] at h
  obtain ⟨⟨⟨⟨⟨hsome, hone⟩, _⟩, hedges⟩, hnodes⟩, _⟩ := h
  refine ⟨?_, ?_, hnodes⟩
  · cases htriggers : triggers g with
    | nil => simp [htriggers] at hsome
    | cons trigger rest =>
      rw [htriggers] at hone
      simp only [List.length_cons] at hone
      have hrest : rest = [] := List.length_eq_zero_iff.mp (by omega)
      exact ⟨trigger, by rw [hrest]⟩
  · intro e he
    obtain ⟨i, hi, rfl⟩ := List.mem_iff_getElem.mp he
    have hchecked := hedges (g.edges[i], i) (List.mk_mem_zipIdx_iff_getElem?.mpr (by simp [hi]))
    simp only [validateEdge, List.append_eq_nil_iff, req_eq_nil, List.any_eq_true] at hchecked
    obtain ⟨n, hn, hid⟩ := hchecked.2
    exact ⟨n, hn, beq_iff_eq.mp hid⟩

variable {n : Node}

theorem exists_out (h : isAccepted g = true) (hn : n ∈ g.nodes) (hend : n.type ≠ .end') :
    g.out n.id ≠ [] := by
  have hnode := (validate_eq_nil h).2.2 n hn
  simp only [validateNode, List.append_eq_nil_iff, req_eq_nil, Bool.or_eq_true, beq_iff_eq,
    Bool.not_eq_true', List.isEmpty_eq_false_iff] at hnode
  exact hnode.1.1.1.resolve_left hend

theorem validateNodeConfig_eq_nil (h : isAccepted g = true) (hn : n ∈ g.nodes) :
    validateNodeConfig n = [] := by
  have hnode := (validate_eq_nil h).2.2 n hn
  simp only [validateNode, List.append_eq_nil_iff] at hnode
  exact hnode.2

theorem exists_conditionEdge (h : isAccepted g = true) (hn : n ∈ g.nodes)
    (htype : n.type = .condition) {label : String} (hlabel : label = "true" ∨ label = "false") :
    ∃ e ∈ g.out n.id, e.condition = some label := by
  have hnode := (validate_eq_nil h).2.2 n hn
  simp only [validateNode, htype, List.append_eq_nil_iff, beq_self_eq_true, if_true, req_eq_nil,
    List.any_eq_true, beq_iff_eq] at hnode
  rcases hlabel with rfl | rfl
  · exact hnode.1.1.2.1
  · exact hnode.1.1.2.2

theorem exists_approvalEdge (h : isAccepted g = true) (hn : n ∈ g.nodes)
    (htype : n.type = .approval) {label : String}
    (hlabel : label = "approved" ∨ label = "rejected") :
    ∃ e ∈ g.out n.id, e.condition = some label := by
  have hnode := (validate_eq_nil h).2.2 n hn
  simp only [validateNode, htype, List.append_eq_nil_iff, beq_self_eq_true, if_true, req_eq_nil,
    List.any_eq_true, beq_iff_eq] at hnode
  rcases hlabel with rfl | rfl
  · exact hnode.1.2.1
  · exact hnode.1.2.2

end

end Prequest.Workflow
