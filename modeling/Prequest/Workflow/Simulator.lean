import Prequest.Workflow.CaseRun

/-!
# The simulator

`simulate` runs the engine on a ticket that it is given, with `dryRun` set. The
executor of every node then leaves out its writes, a condition reads the given
ticket, and a node that would wait stops the run. The templates of an
`http_request` node are filled in all the same.
-/

namespace Prequest.Workflow

/-! ## What a dry run collects -/

inductive EventPayload where
  | none
  | waitingFor (what : String)
  | waitType (v : Option Value)
  | delayMinutes (v : Option Value)
  | wouldCreate (count : Nat)
  | wouldCall (method : String) (url : String)
  deriving DecidableEq, Repr

structure EmittedEvent where
  eventType : String
  nodeId : String
  nodeType : String
  decision : Option String := none
  payload : EventPayload := .none
  deriving DecidableEq, Repr

/-- `stoppedAt`. -/
structure StoppedAt where
  nodeId : String
  nodeType : String
  reason : String
  deriving DecidableEq, Repr

/-- `WorkflowRunContext`, without the flag and the ticket. -/
structure RunContext where
  events : List EmittedEvent := []
  path : List String := []
  stoppedAt : Option StoppedAt := none
  deriving DecidableEq, Repr

/-- `emit`, when the context is that of a dry run. -/
def RunContext.emit (ctx : RunContext) (node : Node) (eventType : String)
    (decision : Option String) (payload : EventPayload) : RunContext :=
  { ctx with
    events := ctx.events ++
      [{ eventType := eventType, nodeId := node.id, nodeType := node.type.name
         decision := decision, payload := payload }] }

def RunContext.stop (ctx : RunContext) (node : Node) (payload : EventPayload) : RunContext :=
  { (ctx.emit node "instance_waiting" .none payload) with
    stoppedAt := some { nodeId := node.id, nodeType := node.type.name, reason := node.type.name } }

/-! ## Writes -/

inductive Write where
  | currentNode (nodeId : String)
  | instanceEvent (eventType : String)
  | setEntityAssignment
  | updateEntityCombined
  | dispatchBatch
  | notification
  | approval
  | status (s : InstanceStatus)
  | context
  | httpCall
  deriving DecidableEq, Repr

/-- The writes of `advance` and `executeNode` for the node they enter, with their guards. -/
def nodeWrites (dryRun : Bool) (node : Node) : List Write :=
  let unlessDry (ws : List Write) : List Write := if dryRun then [] else ws
  let event (eventType : String) : List Write := unlessDry [.instanceEvent eventType]
  unlessDry [.currentNode node.id] ++ event "node_entered" ++
    match node.type with
    | .assign =>
        unlessDry (if (node.config.get "team_id").isSome || (node.config.get "user_id").isSome then
          [.setEntityAssignment] else [])
    | .updateTicket =>
        unlessDry (if fieldsAllowed node && ((fieldKeys (node.config.get "fields")).getD []) != []
          then [.updateEntityCombined] else [])
    | .notification => unlessDry [.notification]
    | .condition => event "decision_made"
    | .createChildTasks =>
        if dryRun then event "node_entered"
        else
          match node.config.get "tasks" with
          | some (.items (_ :: _)) => [.dispatchBatch]
          | _ => []
    | .approval =>
        if dryRun then event "instance_waiting"
        else [.approval, .status .waiting, .instanceEvent "instance_waiting"]
    | .waitFor =>
        if dryRun then event "instance_waiting"
        else [.status .waiting, .instanceEvent "instance_waiting"]
    | .timer =>
        if dryRun then event "instance_waiting"
        else if truthy (node.config.get "delay_minutes") then
          [.status .waiting, .instanceEvent "instance_waiting"]
        else []
    | .end' => unlessDry [.status .completed] ++ event "instance_completed"
    | .httpRequest =>
        if dryRun then event "node_entered"
        else
          [.httpCall, .instanceEvent "node_entered"] ++
            if truthy (node.config.get "save_response_as") then [.context] else []
    | _ => []

@[simp] theorem nodeWrites_dryRun (node : Node) : nodeWrites true node = [] := by
  unfold nodeWrites
  cases node.type <;> rfl

/-! ## The dry run -/

variable (substituteTemplate : String → TicketRow → String)

/-- The tasks of a `create_child_tasks` node. -/
def taskCount (config : Config) : Nat :=
  match config.get "tasks" with
  | some (.items ts) => ts.length
  | _ => 0

/-- `executeNode` in a dry run, up to the call of `advance`. -/
def dryExecute (simulatedTicket : TicketRow) (node : Node) (ctx : RunContext) :
    RunContext × NodeEffect :=
  let c := node.config
  let entered := ctx.emit node "node_entered" .none .none
  let entered := { entered with path := entered.path ++ [node.id] }
  match node.type with
  | .condition =>
      let result := conditionResult c simulatedTicket
      (entered.emit node "decision_made" (some result) .none, .advance (some result))
  | .createChildTasks =>
      (entered.emit node "node_entered" .none (.wouldCreate (taskCount c)), .advance none)
  | .approval => (entered.stop node (.waitingFor "approval"), .stay)
  | .waitFor => (entered.stop node (.waitType (c.get "wait_type")), .stay)
  | .timer => (entered.stop node (.delayMinutes (c.get "delay_minutes")), .stay)
  | .end' => (entered.emit node "instance_completed" .none .none, .stay)
  | .httpRequest =>
      if requestThrows c then (entered, .throws "TypeError")
      else
        let method := (asString (c.get "method")).getD "POST"
        let url := substituteTemplate ((asString (c.get "url")).getD "") simulatedTicket
        (entered.emit node "node_entered" .none (.wouldCall method url), .advance none)
  | _ => (entered, .advance none)

/-- A dry run on its way, with the error that it has thrown. -/
structure SimState where
  pending : Option (String × Option String)
  error : Option String := none
  context : RunContext := {}
  writes : List Write := []
  deriving DecidableEq, Repr

/-- The next call of `advance`. -/
def NodeEffect.pending (node : Node) : NodeEffect → Option (String × Option String)
  | .advance decision => some (node.id, decision)
  | _ => none

def NodeEffect.thrown : NodeEffect → Option String
  | .throws error => some error
  | _ => none

/-- One `advance` of a dry run. -/
def simMove (g : Graph) (simulatedTicket : TicketRow) (s : SimState) : SimState :=
  match s.pending with
  | none => s
  | some (fromNodeId, edgeCondition) =>
      match enterNext g fromNodeId edgeCondition with
      | none => { s with pending := none }
      | some (_, node) =>
          let r := dryExecute substituteTemplate simulatedTicket node s.context
          { pending := r.2.pending node
            error := r.2.thrown
            context := r.1
            writes := s.writes ++ nodeWrites true node }

/-- `simulate`, after the given number of moves. -/
def simulateFor (g : Graph) (simulatedTicket : TicketRow) : Nat → SimState
  | 0 => { pending := (trigger? g).map fun t => (t.id, none) }
  | n + 1 => simMove substituteTemplate g simulatedTicket (simulateFor g simulatedTicket n)

/-- `terminated`. -/
def SimState.terminated (s : SimState) : Bool :=
  s.context.events.any fun e => e.eventType == "instance_completed"

section

variable {substituteTemplate} {ticket : TicketRow} {node : Node} {ctx : RunContext}

theorem dryExecute_path :
    (dryExecute substituteTemplate ticket node ctx).1.path = ctx.path ++ [node.id] := by
  unfold dryExecute
  cases node.type with
  | httpRequest =>
    simp only
    split <;> rfl
  | _ => rfl

theorem dryExecute_terminated :
    ((dryExecute substituteTemplate ticket node ctx).1.events.any fun e =>
        e.eventType == "instance_completed") =
      ((ctx.events.any fun e => e.eventType == "instance_completed") ||
        node.type == .end') := by
  unfold dryExecute
  cases node.type with
  | httpRequest =>
    simp only
    split <;> simp [RunContext.emit]
  | _ => simp [RunContext.emit, RunContext.stop]

/-- The node stops a dry run. -/
def Node.stops (node : Node) : Bool :=
  node.type == .approval || node.type == .waitFor || node.type == .timer

theorem dryExecute_stoppedAt :
    (dryExecute substituteTemplate ticket node ctx).1.stoppedAt.isSome =
      (ctx.stoppedAt.isSome || node.stops) := by
  unfold dryExecute Node.stops
  cases node.type with
  | httpRequest =>
    simp only
    split <;> simp [RunContext.emit]
  | _ => simp [RunContext.emit, RunContext.stop]

theorem simulateFor_writes (g : Graph) (n : Nat) :
    (simulateFor substituteTemplate g ticket n).writes = [] := by
  induction n with
  | zero => rfl
  | succ n ih =>
    show (simMove substituteTemplate g ticket _).writes = []
    unfold simMove
    split
    · exact ih
    · split
      · exact ih
      · simp [ih]

end

end Prequest.Workflow
