import Prequest.Lib.Date
import Prequest.Lib.Run
import Prequest.Workflow.Graph

/-!
# The workflow engine

An instance of a workflow stands at a node. `advance` picks an outgoing edge of
that node, moves the instance along it and executes the node it leads to; a
node that does not wait calls `advance` again, so that one call of `start` or
`resume` executes a chain of nodes.

* `Node.Fails`, `Node.fails_iff`: when a node leaves its instance active without going on.
* `advance_mono`: more fuel does not change a chain that has ended.

The waiting state, the position and the other columns are written without a look
at the error of the write; `positionLost` and `statusLost` are such errors.
-/

namespace Prequest.Workflow

/-! ## One node -/

/-- A row of `tickets`. -/
abbrev TicketRow := String → Option Scalar

/-- What the executor of a node meets. -/
structure NodeAnswer where
  /-- The row that the instance's entity has in `tickets`. -/
  ticket : Option TicketRow := none
  /-- The error of the RPC or the inserts of a node, and of what it reads for them. -/
  error : Node → Option String := fun _ => none
  /-- The error of `dispatchBatch`. -/
  dispatchError : Option String := none
  /-- `Date.now()`. -/
  now : Int := 0
  /-- The write of `current_node_id` fails. -/
  positionLost : Bool := false
  /-- The write of the status fails. -/
  statusLost : Bool := false

/-- The values of `workflow_instances.status`. -/
inductive InstanceStatus where
  | active
  | waiting
  | completed
  | cancelled
  | failed
  deriving DecidableEq, Repr

inductive NodeEffect where
  /-- `advance`, with the decision of a condition. -/
  | advance (decision : Option String)
  | write (status : InstanceStatus) (waitingFor : Option String)
  /-- `break` without a write. -/
  | stay
  | throws (error : String)
  deriving DecidableEq, Repr

/-- `UPDATE_TICKET_ALLOWED_FIELDS`. -/
def updateTicketAllowedFields : List String :=
  ["status", "status_category", "waiting_reason", "priority", "assigned_team_id",
    "assigned_user_id", "assigned_vendor_id", "sla_id", "title", "description", "cost", "tags",
    "watchers"]

/-- `Object.keys(fields)`, when `fields` is set. -/
def fieldKeys : Option Value → Option (List String)
  | some (.fields fs) => some (fs.map Prod.fst)
  | some (.items xs) => some ((List.range xs.length).map toString)
  | some (.scalar (.str text)) => some ((List.range text.length).map toString)
  | _ => none

/-- `actual === value`. -/
def strictEquals (actual : Option Scalar) : Option Value → Bool
  | none => actual.isNone
  | some (.scalar s) => actual == some s
  | some _ => false

/-- `Array.isArray(value) && value.includes(actual)`. -/
def arrayIncludes (actual : Option Scalar) : Option Value → Bool
  | some (.items xs) => xs.any fun x =>
      match x with
      | .scalar s => actual == some s
      | .fields _ => false
  | _ => false

def conditionResult (config : Config) (ticket : TicketRow) : String :=
  let actual := (asString (config.get "field")).bind ticket
  let value := config.get "value"
  let operator := asString (config.get "operator")
  if operator = some "equals" ∧ strictEquals actual value = true then "true"
  else if operator = some "not_equals" ∧ strictEquals actual value = false then "true"
  else if operator = some "in" ∧ arrayIncludes actual value = true then "true"
  else "false"

/-! ### Values of another type -/

/-- The number of a text: whole and decimal, without the characters around it. `none` is `NaN`. -/
def textNumber (text : String) : Option Int :=
  let trimmed := ((text.toList.dropWhile isTrimmed).reverse.dropWhile isTrimmed).reverse
  let digits (cs : List Char) : Option Int :=
    if cs.isEmpty || !cs.all Char.isDigit then none
    else some (cs.foldl (fun n c => 10 * n + (c.toNat - '0'.toNat : Nat)) 0)
  match trimmed with
  | [] => some 0
  | '-' :: cs => (digits cs).map fun n => -n
  | '+' :: cs => digits cs
  | cs => digits cs

/-- `Number(v)`. -/
def toNumber : Value → Option Int
  | .scalar .null => some 0
  | .scalar (.bool b) => some (if b then 1 else 0)
  | .scalar (.num n) => some n
  | .scalar (.str text) => textNumber text
  | .items [] => some 0
  | .items [.scalar .null] => some 0
  | .items [.scalar (.num n)] => some n
  | .items [.scalar (.str text)] => textNumber text
  | _ => none

/-- `new Date(now + delayMinutes * 60_000)` is a date, so that `toISOString` does not throw. -/
def isSettable (now : Int) (delayMinutes : Option Value) : Bool :=
  (delayMinutes.bind toNumber).any fun minutes => Lib.Calendar.inRange (now + minutes * 60000)

/-- `substituteTemplate` throws on what is set and no string. -/
def templateThrows (v : Option Value) : Bool := truthy v && (asString v).isNone

def headerThrows : Item → Bool
  | .scalar s => templateThrows (some (.scalar s))
  | .fields _ => true

/-- A template of an `http_request` node throws; this is before the `try`. -/
def requestThrows (config : Config) : Bool :=
  templateThrows (config.get "url") ||
    (match config.get "headers" with
    | some (.fields fs) => fs.any fun f => headerThrows (.scalar f.2)
    | some (.items xs) => xs.any headerThrows
    | _ => false) ||
    templateThrows (config.get "body")

/-- `task.title?.trim()` throws. -/
def titleThrows : Item → Bool
  | .scalar s => s == .null
  | .fields fs =>
      match fs.lookup "title" with
      | some (.num _) => true
      | some (.bool _) => true
      | _ => false

/-- `tasks.map` throws, on what has a length and is no array, or in one of its tasks. -/
def tasksThrow : Option Value → Bool
  | some (.items xs) => xs.any titleThrows
  | some (.scalar (.str text)) => text != ""
  | some (.fields fs) =>
      ((fs.lookup "length").bind fun s => toNumber (.scalar s)).any fun n => decide (0 < n)
  | _ => false

/-- The loop over `required_approvers` comes to a `null`. -/
def approversThrow : Option Value → Bool
  | some (.items xs) => xs.any fun x => x == .scalar .null
  | _ => false

/-! ### The executor -/

/-- The error of a command on a case, which has to be in `tickets`. -/
def NodeAnswer.caseError (answer : NodeAnswer) (error : Option String) (notFound : String) :
    Option String :=
  error.or (if answer.ticket.isNone then some notFound else none)

/-- The error of the executor, or the next move. -/
def orThrow : Option String → NodeEffect → NodeEffect
  | some error, _ => .throws error
  | none, effect => effect

/-- `executeNode`, up to the call of `advance`. -/
def executeNode (node : Node) (answer : NodeAnswer) : NodeEffect :=
  let c := node.config
  match node.type with
  | .assign =>
      if (c.get "team_id").isSome || (c.get "user_id").isSome then
        orThrow (answer.caseError (answer.error node) "set_entity_assignment.not_found")
          (.advance none)
      else .advance none
  | .updateTicket =>
      match fieldKeys (c.get "fields") with
      | none => .advance none
      | some keys =>
          if (keys.filter fun k => !updateTicketAllowedFields.contains k).isEmpty then
            if keys.isEmpty then .advance none
            else
              orThrow (answer.caseError (answer.error node) "update_entity_combined.not_found")
                (.advance none)
          else .throws "workflow.update_ticket_field_not_allowed"
  | .condition =>
      match answer.ticket with
      | none => .stay
      | some ticket => .advance (some (conditionResult c ticket))
  | .createChildTasks =>
      if tasksThrow (c.get "tasks") then .throws "TypeError"
      else
        match c.get "tasks", answer.caseError answer.dispatchError "ticket.not_found" with
        | some (.items (_ :: _)), some _ => .write .failed none
        | _, _ => .advance none
  | .approval =>
      let error := if approversThrow (c.get "required_approvers") then some "TypeError" else none
      orThrow ((answer.error node).or error) (.write .waiting (some "approval"))
  | .waitFor => .write .waiting (asString (c.get "wait_type"))
  | .timer =>
      if truthy (c.get "delay_minutes") then
        if isSettable answer.now (c.get "delay_minutes") then .write .waiting (some "timer")
        else .throws "RangeError"
      else .stay
  | .httpRequest => if requestThrows c then .throws "TypeError" else .advance none
  | .end' => .write .completed none
  | _ => .advance none

/-! ## Nodes that fail -/

/-- The node fails on what it meets: a value of its configuration, a service it calls, its ticket,
or the write it ends with. -/
def Node.Fails (n : Node) (answer : NodeAnswer) : Prop :=
  match n.type with
  | .assign =>
      ((n.config.get "team_id").isSome ∨ (n.config.get "user_id").isSome) ∧
        ((answer.error n).isSome ∨ answer.ticket = none)
  | .updateTicket =>
      ∃ keys, fieldKeys (n.config.get "fields") = some keys ∧
        ((∃ k ∈ keys, k ∉ updateTicketAllowedFields) ∨
          keys ≠ [] ∧ ((answer.error n).isSome ∨ answer.ticket = none))
  | .condition => answer.ticket = none
  | .createChildTasks =>
      tasksThrow (n.config.get "tasks") = true ∨
        (∃ task tasks, n.config.get "tasks" = some (.items (task :: tasks))) ∧
          (answer.dispatchError.isSome ∨ answer.ticket = none) ∧ answer.statusLost = true
  | .approval =>
      approversThrow (n.config.get "required_approvers") = true ∨ (answer.error n).isSome ∨
        answer.statusLost = true
  | .waitFor => answer.statusLost = true
  | .timer =>
      truthy (n.config.get "delay_minutes") = false ∨
        isSettable answer.now (n.config.get "delay_minutes") = false ∨ answer.statusLost = true
  | .httpRequest => requestThrows n.config = true
  | .end' => answer.statusLost = true
  | _ => False

def NodeEffect.Lands (effect : NodeEffect) (answer : NodeAnswer) : Prop :=
  match effect with
  | .advance _ => True
  | .write _ _ => answer.statusLost = false
  | .stay => False
  | .throws _ => False

variable {n : Node}

section

variable {answer : NodeAnswer}

@[simp] theorem NodeEffect.lands_advance {decision : Option String} :
    (NodeEffect.advance decision).Lands answer := trivial

variable {status : InstanceStatus} {waitingFor : Option String}

@[simp] theorem NodeEffect.lands_write :
    (NodeEffect.write status waitingFor).Lands answer ↔ answer.statusLost = false := Iff.rfl

@[simp] theorem NodeEffect.not_lands_stay : ¬NodeEffect.stay.Lands answer := id

@[simp] theorem NodeEffect.not_lands_throws {error : String} :
    ¬(NodeEffect.throws error).Lands answer := id

@[simp] theorem NodeEffect.lands_orThrow {error : Option String} {effect : NodeEffect} :
    (orThrow error effect).Lands answer ↔ error = none ∧ effect.Lands answer := by
  cases error with
  | none => simp [orThrow]
  | some e => simp [orThrow]

@[simp] theorem NodeAnswer.caseError_eq_none {error : Option String} {notFound : String} :
    answer.caseError error notFound = none ↔ ¬(error.isSome ∨ answer.ticket = none) := by
  unfold NodeAnswer.caseError
  cases error <;> cases answer.ticket <;> simp

theorem Node.fails_iff : n.Fails answer ↔ ¬(executeNode n answer).Lands answer := by
  unfold Node.Fails executeNode
  cases n.type with
  | assign =>
    simp only [Bool.or_eq_true]
    split
    · rename_i htarget
      simp only [htarget, true_and, NodeEffect.lands_orThrow, NodeAnswer.caseError_eq_none,
        NodeEffect.lands_advance, and_true, not_not]
    · rename_i htarget
      simp [htarget]
  | updateTicket =>
    simp only
    cases hkeys : fieldKeys (n.config.get "fields") with
    | none => simp
    | some keys =>
      simp only [Option.some.injEq, exists_eq_left']
      by_cases hallowed : (keys.filter fun k => !updateTicketAllowedFields.contains k).isEmpty
      · have hall : ¬∃ k ∈ keys, k ∉ updateTicketAllowedFields := by
          rw [List.isEmpty_iff, List.filter_eq_nil_iff] at hallowed
          rintro ⟨k, hk, hnot⟩
          exact hallowed k hk (by simpa using hnot)
        simp only [hallowed, if_true, hall, false_or]
        cases keys with
        | nil => simp
        | cons k keys =>
          simp only [ne_eq, reduceCtorEq, not_false_eq_true, true_and, List.isEmpty_cons,
            Bool.false_eq_true, if_false, NodeEffect.lands_orThrow, NodeAnswer.caseError_eq_none,
            NodeEffect.lands_advance, and_true, not_not]
      · have hsome : ∃ k ∈ keys, k ∉ updateTicketAllowedFields := by
          rw [List.isEmpty_iff, List.filter_eq_nil_iff] at hallowed
          push Not at hallowed
          obtain ⟨k, hk, hnot⟩ := hallowed
          exact ⟨k, hk, by simpa using hnot⟩
        simp only [hallowed, Bool.false_eq_true, if_false, hsome, true_or, true_iff]
        exact NodeEffect.not_lands_throws
  | condition => cases answer.ticket <;> simp
  | createChildTasks =>
    simp only
    cases tasksThrow (n.config.get "tasks") with
    | true => simp
    | false =>
      simp only [Bool.false_eq_true, false_or, if_false]
      split
      · rename_i task tasks error htasks herror
        have hfailed : answer.dispatchError.isSome ∨ answer.ticket = none := by
          by_contra hnone
          rw [NodeAnswer.caseError_eq_none.mpr hnone] at herror
          cases herror
        simp [htasks, hfailed]
      · rename_i hother
        simp only [NodeEffect.lands_advance, not_true_eq_false, iff_false]
        rintro ⟨⟨task, tasks, htasks⟩, hfailed, _⟩
        cases herror : answer.caseError answer.dispatchError "ticket.not_found" with
        | none => exact NodeAnswer.caseError_eq_none.mp herror hfailed
        | some error => exact hother task tasks error htasks herror
  | approval =>
    simp only [NodeEffect.lands_orThrow, NodeEffect.lands_write]
    cases approversThrow (n.config.get "required_approvers") <;> cases answer.error n <;> simp
  | waitFor => simp
  | timer =>
    simp only
    split
    · rename_i hdelay
      split
      · rename_i hsettable
        simp [hdelay, hsettable]
      · rename_i hsettable
        simp [hsettable]
    · rename_i hdelay
      simp [hdelay]
  | httpRequest =>
    simp only
    split <;> simp [*]
  | end' => simp
  | trigger => simp
  | notification => simp
  | other name => simp

theorem write_of_orThrow {error : Option String} {effect : NodeEffect}
    (h : orThrow error effect = .write status waitingFor) : effect = .write status waitingFor := by
  cases error with
  | none => exact h
  | some e => cases h

/-- No node writes `active`, and an end does not write `waiting`. -/
theorem executeNode_write (h : executeNode n answer = .write status waitingFor) :
    status ≠ .active ∧ (status = .waiting → n.type ≠ .end') := by
  unfold executeNode at h
  cases htype : n.type with
  | assign =>
    simp only [htype] at h
    split at h
    · cases write_of_orThrow h
    · cases h
  | updateTicket =>
    simp only [htype] at h
    split at h
    · cases h
    · split at h
      · split at h
        · cases h
        · cases write_of_orThrow h
      · cases h
  | condition =>
    simp only [htype] at h
    split at h <;> cases h
  | createChildTasks =>
    simp only [htype] at h
    split at h
    · cases h
    · split at h
      · cases h
        decide
      · cases h
  | approval =>
    simp only [htype] at h
    cases write_of_orThrow h
    decide
  | waitFor =>
    simp only [htype] at h
    cases h
    decide
  | timer =>
    simp only [htype] at h
    split at h
    · split at h
      · cases h
        decide
      · cases h
    · cases h
  | end' =>
    simp only [htype] at h
    cases h
    decide
  | httpRequest =>
    simp only [htype] at h
    split at h <;> cases h
  | trigger => simp [htype] at h
  | notification => simp [htype] at h
  | other name => simp [htype] at h

theorem executeNode_advance {decision : Option String}
    (h : executeNode n answer = .advance decision) : n.type ≠ .end' := by
  intro hend
  unfold executeNode at h
  rw [hend] at h
  cases h

end

/-! ## One move -/

/-- The edge that `advance` follows. -/
def selectEdge (g : Graph) (fromNodeId : String) (edgeCondition : Option String) : Option Edge :=
  match g.out fromNodeId with
  | [] => none
  | first :: rest =>
      match edgeCondition with
      | none => some first
      | some c =>
          if c = "" then some first
          else some (((first :: rest).find? fun e => e.condition == some c).getD first)

/-- A row of `workflow_instances`. -/
structure InstanceRow where
  id : Nat
  status : InstanceStatus
  currentNodeId : String
  waitingFor : Option String := none
  deriving DecidableEq, Repr

/-- A decision, the node it was taken at, and the edge that was followed. -/
structure Branch where
  node : String
  decision : Option String
  edge : Edge
  deriving DecidableEq, Repr

/-- An instance during a call, with the edges followed so far. -/
structure RunState where
  instance' : InstanceRow
  trace : List Branch := []
  deriving DecidableEq, Repr

/-- How a call stands after a number of moves. -/
inductive RunResult where
  | returned (s : RunState)
  | threw (s : RunState) (error : String)
  | running (s : RunState)
  deriving DecidableEq, Repr

section

variable (s : RunState) (fromNodeId : String) (edgeCondition : Option String) (e : Edge)
  (node : Node) (answer : NodeAnswer)

/-- Follow the edge `e`, whose target is `node`. -/
def RunState.follow : RunState where
  instance' :=
    if answer.positionLost then s.instance' else { s.instance' with currentNodeId := node.id }
  trace := s.trace ++ [{ node := fromNodeId, decision := edgeCondition, edge := e }]

@[simp] theorem RunState.follow_status :
    (s.follow fromNodeId edgeCondition e node answer).instance'.status = s.instance'.status := by
  unfold RunState.follow
  split <;> rfl

@[simp] theorem RunState.follow_id :
    (s.follow fromNodeId edgeCondition e node answer).instance'.id = s.instance'.id := by
  unfold RunState.follow
  split <;> rfl

end

def RunState.write (s : RunState) (status : InstanceStatus) (waitingFor : Option String)
    (answer : NodeAnswer) : RunState :=
  if answer.statusLost then s
  else { s with instance' := { s.instance' with status := status, waitingFor := waitingFor } }

/-- The node that an edge of `fromNodeId` leads to. -/
def enterNext (g : Graph) (fromNodeId : String) (edgeCondition : Option String) :
    Option (Edge × Node) :=
  (selectEdge g fromNodeId edgeCondition).bind fun e => (g.node? e.to').map fun n => (e, n)

/-- `advance`, for at most the given number of moves. -/
def advance (g : Graph) : Nat → (Nat → NodeAnswer) → RunState → String → Option String → RunResult
  | 0, _, s, _, _ => .running s
  | fuel + 1, answers, s, fromNodeId, edgeCondition =>
      match enterNext g fromNodeId edgeCondition with
      | none => .returned s
      | some (e, node) =>
          let s' := s.follow fromNodeId edgeCondition e node (answers 0)
          match executeNode node (answers 0) with
          | .advance decision => advance g fuel (fun i => answers (i + 1)) s' node.id decision
          | .write status waitingFor => .returned (s'.write status waitingFor (answers 0))
          | .stay => .returned s'
          | .throws error => .threw s' error

/-! ## Calls -/

/-- The calls that reach `advance`. -/
inductive Call where
  /-- `startForTicket` or `startForBooking`, once the instance is inserted. -/
  | start (instanceId : Nat)
  /-- `resume`, once the definition and the tenant are found. -/
  | resume (edgeCondition : Option String)
  deriving DecidableEq, Repr

def trigger? (g : Graph) : Option Node := g.nodes.find? fun n => n.type == .trigger

/-- The instance and the position that a call starts from, if it does not return at once. -/
def callFrom (g : Graph) (instance' : Option InstanceRow) : Call →
    Option (InstanceRow × String × Option String)
  | .start instanceId =>
      match instance' with
      | some _ => none
      | none => (trigger? g).map fun t =>
          ({ id := instanceId, status := .active, currentNodeId := t.id }, t.id, none)
  | .resume edgeCondition =>
      match instance' with
      | none => none
      | some row =>
          if row.status = .waiting then
            some ({ row with status := .active, waitingFor := none }, row.currentNodeId,
              edgeCondition)
          else none

/-- One call, for at most the given number of moves. -/
def callEngine (g : Graph) (fuel : Nat) (answers : Nat → NodeAnswer) (instance' : Option InstanceRow)
    (call : Call) : Option RunResult :=
  (callFrom g instance' call).map fun p => advance g fuel answers ⟨p.1, []⟩ p.2.1 p.2.2

def RunResult.state : RunResult → RunState
  | .returned s => s
  | .threw s _ => s
  | .running s => s

section

variable {g : Graph} {answers : Nat → NodeAnswer}

variable {fromNodeId : String} {edgeCondition : Option String}

theorem advance_mono {fuel : Nat} {s : RunState} {r : RunResult}
    (h : advance g fuel answers s fromNodeId edgeCondition = r) (hended : ∀ s', r ≠ .running s')
    (more : Nat) : advance g (fuel + more) answers s fromNodeId edgeCondition = r := by
  induction fuel generalizing answers s fromNodeId edgeCondition with
  | zero => exact absurd h.symm (hended s)
  | succ fuel ih =>
    rw [Nat.succ_add]
    rw [advance] at h ⊢
    cases hnext : enterNext g fromNodeId edgeCondition with
    | none =>
      rw [hnext] at h
      exact h
    | some p =>
      rw [hnext] at h
      simp only at h ⊢
      cases heffect : executeNode p.2 (answers 0) with
      | advance decision =>
        rw [heffect] at h
        exact ih h
      | write status waitingFor =>
        rw [heffect] at h
        exact h
      | stay =>
        rw [heffect] at h
        exact h
      | throws error =>
        rw [heffect] at h
        exact h

theorem advance_id (fuel : Nat) {answers : Nat → NodeAnswer} {s : RunState} :
    (advance g fuel answers s fromNodeId edgeCondition).state.instance'.id = s.instance'.id := by
  induction fuel generalizing answers s fromNodeId edgeCondition with
  | zero => rfl
  | succ fuel ih =>
    rw [advance]
    cases enterNext g fromNodeId edgeCondition with
    | none => rfl
    | some p =>
      have hfollow := s.follow_id fromNodeId edgeCondition p.1 p.2 (answers 0)
      simp only
      cases executeNode p.2 (answers 0) with
      | advance decision => exact ih.trans hfollow
      | write status waitingFor =>
        simp only [RunResult.state, RunState.write]
        split <;> exact hfollow
      | stay => exact hfollow
      | throws error => exact hfollow

theorem enterNext_eq_some {e : Edge}
    {node : Node} : enterNext g fromNodeId edgeCondition = some (e, node) ↔
      selectEdge g fromNodeId edgeCondition = some e ∧ g.node? e.to' = some node := by
  unfold enterNext
  constructor
  · intro h
    obtain ⟨e', he', hnode⟩ := Option.bind_eq_some_iff.mp h
    obtain ⟨n, hn, heq⟩ := Option.map_eq_some_iff.mp hnode
    cases heq
    exact ⟨he', hn⟩
  · intro h
    rw [h.1, Option.bind_some, h.2, Option.map_some]

theorem selectEdge_mem {e : Edge}
    (h : selectEdge g fromNodeId edgeCondition = some e) : e ∈ g.out fromNodeId := by
  unfold selectEdge at h
  cases hout : g.out fromNodeId with
  | nil =>
    rw [hout] at h
    cases h
  | cons first rest =>
    rw [hout] at h
    cases edgeCondition with
    | none =>
      cases h
      exact List.mem_cons_self
    | some c =>
      simp only at h
      split at h
      · cases h
        exact List.mem_cons_self
      · obtain rfl := Option.some.inj h
        cases hfind : (first :: rest).find? fun e => e.condition == some c with
        | none => exact List.mem_cons_self
        | some found => exact List.mem_of_find?_eq_some hfind

theorem exists_enterNext (h : isAccepted g = true) (hn : n ∈ g.nodes) (hend : n.type ≠ .end')
    (edgeCondition : Option String) :
    ∃ e node, enterNext g n.id edgeCondition = some (e, node) := by
  have hselect : ∃ e, selectEdge g n.id edgeCondition = some e := by
    unfold selectEdge
    cases hout : g.out n.id with
    | nil => exact absurd hout (exists_out h hn hend)
    | cons first rest =>
      cases edgeCondition with
      | none => exact ⟨first, rfl⟩
      | some c =>
        simp only
        split
        · exact ⟨first, rfl⟩
        · exact ⟨_, rfl⟩
  obtain ⟨e, he⟩ := hselect
  have hedge : e ∈ g.edges := (List.mem_filter.mp (selectEdge_mem he)).1
  obtain ⟨target, htarget, hid⟩ := (validate_eq_nil h).2.1 e hedge
  cases hnode : g.node? e.to' with
  | none =>
    have hmissing := List.find?_eq_none.mp hnode target htarget
    rw [hid] at hmissing
    exact absurd (beq_self_eq_true e.to') hmissing
  | some node => exact ⟨e, node, enterNext_eq_some.mpr ⟨he, hnode⟩⟩

end

end Prequest.Workflow
