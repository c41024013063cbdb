import Prequest.Command.Operation
import Prequest.Lib.Run
import Prequest.Workflow.CaseCommands

/-!
# An instance at work on its case

One move of the engine enters a node, calls the command of the node and goes on.
The command is gated by a key of the instance, the node and the case, so that a
second call with the same key is answered from `command_operations`.

* `EngineState`, `engineStep`: calls of the engine, moves, interruptions and edits by others.
-/

namespace Prequest.Workflow

open Prequest.Lib Prequest.Command Prequest.Cases

/-! ## What a node asks for -/

inductive CasePayload where
  | assignment (p : AssignmentPayload)
  | patches (p : Patches)
  | tasks (ts : List TaskPayload)
  deriving DecidableEq, Repr

/-- What the gate compares. -/
def CasePayload.hashed : CasePayload → CasePayload
  | .tasks ts => .tasks (ts.map TaskPayload.hashed)
  | p => p

/-- The idempotency keys that the engine builds: `buildWorkflowAssignmentIdempotencyKey`,
`buildWorkflowUpdateTicketIdempotencyKey`, and `buildDispatchBatchIdempotencyKey` of
`workflow:<instance>:<node>`. -/
inductive OperationKey where
  | assignment (instanceId : Nat) (nodeId : String) (entityId : Nat)
  | updateTicket (instanceId : Nat) (nodeId : String) (entityId : Nat)
  | dispatchBatch (parentId instanceId : Nat) (nodeId : String)
  deriving DecidableEq, Repr

def operationKey (instanceId entityId : Nat) (node : Node) : OperationKey :=
  match node.type with
  | .assign => .assignment instanceId node.id entityId
  | .updateTicket => .updateTicket instanceId node.id entityId
  | _ => .dispatchBatch entityId instanceId node.id

/-- `buildPatchesFromUpdateTicketFields`. -/
def buildPatchesFromUpdateTicketFields (dir : Directory) (now : Int)
    (fields : List (String × Scalar)) : Except String Patches := do
  let field (k : String) : Option Scalar := fields.lookup k
  let text (k : String) : Option (Option String) := (field k).map scalarText
  let value (k : String) : Option Value := (field k).map Value.scalar
  let assignment : AssignmentPayload :=
    { teamId := value "assigned_team_id", userId := value "assigned_user_id"
      vendorId := value "assigned_vendor_id" }
  let sla : Option SlaPayload ←
    match field "sla_id" with
    | none => pure none
    | some .null => pure (some { slaId := .null })
    | some v => do
        let timers ← buildTimersForRpc dir.policies dir.addBusinessMinutes now
          ((scalarText v).getD "")
        pure (some { slaId := v, timers := some timers })
  return {
    status :=
      { status := text "status", statusCategory := text "status_category"
        waitingReason := text "waiting_reason" }
    priority := field "priority"
    assignment := if assignment = {} then none else some assignment
    sla := sla
    title := field "title"
    description := field "description"
    cost := field "cost"
    tags := field "tags"
    watchers := field "watchers" }

/-- `s.trim()`. -/
def trim (s : String) : String :=
  String.ofList ((s.toList.dropWhile isTrimmed).reverse.dropWhile isTrimmed).reverse

/-- One task of `create_child_tasks`, as `dispatchBatch` prepares it. -/
def prepareTask (dir : Directory) (now : Int) (parent : Ticket) (task : Item × Nat) :
    Except String TaskPayload := do
  let fs : List (String × Scalar) :=
    match task.1 with
    | .scalar _ => []
    | .fields fs => fs
  let text (k : String) : Option String := (fs.lookup k).bind scalarText
  let title := ((text "title").map trim).getD ""
  let team := text "assigned_team_id"
  let user := text "assigned_user_id"
  let vendor := text "assigned_vendor_id"
  if (team.any fun id => !dir.teams.contains id) || (user.any fun id => !dir.users.contains id) ||
      vendor.any fun id => !dir.vendors.contains id then
    .error "reference.not_in_tenant"
  let explicit := fs.lookup "sla_policy_id"
  if (explicit.bind scalarText).any fun id => !dir.policies.any fun policy => policy.id == id then
    .error "reference.not_in_tenant"
  let scope : ChildScope :=
    { ticketTypeId := parent.ticketTypeId, locationId := parent.locationId
      assetId := parent.assetId }
  let priority := (text "priority").getD parent.priority
  let routing : Option RoutingEvaluation :=
    if team.isNone && user.isNone && vendor.isNone && parent.ticketTypeId.isSome then
      some (dir.evaluate scope priority)
    else none
  let team := (routing.bind RoutingEvaluation.teamId).or team
  let user := (routing.bind RoutingEvaluation.userId).or user
  let vendor := (routing.bind RoutingEvaluation.vendorId).or vendor
  let slaId : Option String :=
    match explicit with
    | some v => scalarText v
    | none => dir.childSla scope team user vendor
  let timers : List TimerPlan ←
    match nullif slaId with
    | none => pure []
    | some id => buildTimersForRpc dir.policies dir.addBusinessMinutes now id
  return {
    title := if title = "" then s!"Subtask {task.2 + 1}" else title
    description := nullif (text "description")
    priority := (nullif (some priority)).getD parent.priority
    interactionMode := (nullif (text "interaction_mode")).getD "internal"
    scope := scope
    assignedTeamId := team
    assignedUserId := user
    assignedVendorId := vendor
    slaId := nullif slaId
    timers := timers
    routing := routing }

/-- The checks of `DispatchService.dispatchBatch` and the payload it builds. -/
def prepareBatch (dir : Directory) (now : Int) (parent : Ticket) (tasks : List Item) :
    Except String (List TaskPayload) :=
  if parent.statusCategory = "pending_approval" then .error "dispatch.parent_pending_approval"
  else if isTerminal parent.statusCategory then .error "dispatch.parent_terminal"
  else tasks.zipIdx.mapM (prepareTask dir now parent)

/-- No field of an `update_ticket` node is outside `UPDATE_TICKET_ALLOWED_FIELDS`. -/
def fieldsAllowed (node : Node) : Bool :=
  node.type != .updateTicket ||
    ((fieldKeys (node.config.get "fields")).getD []).all fun k =>
      updateTicketAllowedFields.contains k

section

variable (dir : Directory) (now : Int)

/-- What a node asks for, if anything. -/
def prepare (node : Node) (s : CaseState) :
    Except String (Option CasePayload) :=
  match node.type with
  | .assign =>
      let p : AssignmentPayload :=
        { teamId := node.config.get "team_id", userId := node.config.get "user_id" }
      if p.teamId.isSome || p.userId.isSome then .ok (some (.assignment p)) else .ok none
  | .updateTicket =>
      if fieldsAllowed node then
        match node.config.get "fields" with
        | some (.fields (f :: fs)) =>
            (buildPatchesFromUpdateTicketFields dir now (f :: fs)).map fun p => some (.patches p)
        | _ => .ok none
      else .error "workflow.update_ticket_field_not_allowed"
  | .createChildTasks =>
      if tasksThrow (node.config.get "tasks") then .error "TypeError"
      else
        match node.config.get "tasks" with
        | some (.items (t :: ts)) =>
            (prepareBatch dir now s.ticket (t :: ts)).map fun p => some (.tasks p)
        | _ => .ok none
  | _ => .ok none

/-- The body of a command. -/
def perform (nodeId : String) (p : CasePayload) (s : CaseState) :
    Except String CaseState :=
  match p with
  | .assignment p => (setEntityAssignment dir now p s.ticket).map fun t => { s with ticket := t }
  | .patches p => updateEntityCombined dir now p s
  | .tasks ts => dispatchBatch dir now nodeId ts s

def change (node : Node) (s : CaseState) :
    Except String CaseState := do
  match ← prepare dir now node s with
  | none => return s
  | some p => perform dir now node.id p s

end

/-! ## Behind the gate -/

inductive CallFailure where
  | notSent (error : String)
  /-- The command has committed, and its answer is lost. -/
  | answerLost (error : String)
  deriving DecidableEq, Repr

/-- What the engine meets at one move. -/
structure Moment where
  now : Int := 0
  dir : Directory := {}
  isoText : Int → String := toString
  failure : Option CallFailure := none
  /-- The write of `current_node_id` fails. -/
  positionLost : Bool := false
  /-- The write of the status fails. -/
  statusLost : Bool := false

structure CaseWorld where
  case' : CaseState
  operations : Table (CommandOperation OperationKey CasePayload Unit) := Table.empty
  deriving DecidableEq

section

variable (m : Moment)

/-- The call reaches the database. -/
def Moment.sent : Bool :=
  match m.failure with
  | some (.notSent _) => false
  | _ => true

def Moment.callError : Option String :=
  match m.failure with
  | some (.notSent error) => some error
  | some (.answerLost error) => some error
  | none => none

/-- A command of the database: the gate, the body and the record. -/
def command (key : OperationKey) (nodeId : String) (p : CasePayload)
    (w : CaseWorld) : CaseWorld × Option String :=
  match gate w.operations key p.hashed with
  | .error .payloadMismatch => (w, some "command_operations.payload_mismatch")
  | .error .unexpectedState => (w, some "command_operations.unexpected_state")
  | .ok (.cached _) => (w, none)
  | .ok .proceed =>
      match perform m.dir m.now nodeId p w.case' with
      | .error error => (w, some error)
      | .ok s => (⟨s, finish (begin w.operations key p.hashed) key ()⟩, none)

def callCommand (key : OperationKey) (nodeId : String) (p : CasePayload)
    (w : CaseWorld) : CaseWorld × Option String :=
  if m.sent then ((command m key nodeId p w).1, m.callError.or (command m key nodeId p w).2)
  else (w, m.callError)

/-- What the executor of a node is told, given the error of its call. -/
def answerOf (node : Node) (ticket : Ticket) (error : Option String) : NodeAnswer where
  ticket := some (ticket.column m.isoText)
  error := fun _ => if node.type = .createChildTasks then none else error
  dispatchError := if node.type = .createChildTasks then error else none
  now := m.now
  positionLost := m.positionLost
  statusLost := m.statusLost

def nodeCall (instanceId entityId : Nat) (node : Node) (w : CaseWorld) :
    CaseWorld × Option String :=
  match prepare m.dir m.now node w.case' with
  | .error error => (w, some error)
  | .ok none => (w, none)
  | .ok (some p) => callCommand m (operationKey instanceId entityId node) node.id p w

end

/-! ## Runs -/

structure Visit where
  node : Node
  moment : Moment
  before : CaseState
  after : CaseState
  error : Option String

structure EngineState where
  instance' : Option InstanceRow := none
  /-- The call of `advance` that is next in the process at work. -/
  pending : Option (String × Option String) := none
  world : CaseWorld
  visits : List Visit := []

inductive EngineAction where
  /-- `startForTicket` or `resume`, by whoever calls them. -/
  | call (c : Call)
  /-- The next `advance` of the process at work. -/
  | move (m : Moment)
  /-- The process ends. -/
  | interrupt
  /-- Others change the case. -/
  | edit (s : CaseState)

variable (g : Graph) (entityId : Nat)

/-- The node entered by the next move, with the edge and the row it is entered from. -/
def EngineState.entering (s : EngineState) : Option (InstanceRow × String × Option String × Edge × Node) :=
  match s.instance', s.pending with
  | some row, some (fromNodeId, edgeCondition) =>
      (enterNext g fromNodeId edgeCondition).map fun p => (row, fromNodeId, edgeCondition, p.1, p.2)
  | _, _ => none

/-- A node is entered, calls its command and goes on. -/
def visitNode (m : Moment) (s : EngineState) (row : InstanceRow) (fromNodeId : String)
    (edgeCondition : Option String) (e : Edge) (node : Node) : EngineState :=
  let called := nodeCall m row.id entityId node s.world
  let answer := answerOf m node s.world.case'.ticket called.2
  let followed := (⟨row, []⟩ : RunState).follow fromNodeId edgeCondition e node answer
  let s' : EngineState :=
    { s with
      instance' := some followed.instance'
      pending := none
      world := called.1
      visits := s.visits ++
        [{ node := node, moment := m, before := s.world.case', after := called.1.case'
           error := called.2 }] }
  match executeNode node answer with
  | .advance decision => { s' with pending := some (node.id, decision) }
  | .write status waitingFor =>
      { s' with instance' := some (followed.write status waitingFor answer).instance' }
  | .stay => s'
  | .throws _ => s'

def engineStep (s : EngineState) : EngineAction → EngineState
  | .call c =>
      match callFrom g s.instance' c with
      | none => s
      | some (row, fromNodeId, edgeCondition) =>
          { s with instance' := some row, pending := some (fromNodeId, edgeCondition) }
  | .move m =>
      match s.entering g with
      | none => { s with pending := none }
      | some (row, fromNodeId, edgeCondition, e, node) =>
          visitNode entityId m s row fromNodeId edgeCondition e node
  | .interrupt => { s with pending := none }
  | .edit case' => { s with world := { s.world with case' := case' } }

def initial (s : CaseState) : EngineState where
  world := { case' := s }

section

variable {g entityId} {m : Moment} {s : EngineState} {row : InstanceRow} {fromNodeId : String}
  {edgeCondition : Option String} {e : Edge} {node : Node}

@[simp] theorem visitNode_world :
    (visitNode entityId m s row fromNodeId edgeCondition e node).world =
      (nodeCall m row.id entityId node s.world).1 := by
  unfold visitNode
  simp only
  split <;> rfl

@[simp] theorem visitNode_visits :
    (visitNode entityId m s row fromNodeId edgeCondition e node).visits =
      s.visits ++
        [{ node := node, moment := m, before := s.world.case'
           after := (nodeCall m row.id entityId node s.world).1.case'
           error := (nodeCall m row.id entityId node s.world).2 }] := by
  unfold visitNode
  simp only
  split <;> rfl

theorem visitNode_instance :
    ∃ row', (visitNode entityId m s row fromNodeId edgeCondition e node).instance' = some row' ∧
      row'.id = row.id := by
  unfold visitNode
  simp only
  have hfollow := (⟨row, []⟩ : RunState).follow_id fromNodeId edgeCondition e node
    (answerOf m node s.world.case'.ticket (nodeCall m row.id entityId node s.world).2)
  split
  · exact ⟨_, rfl, hfollow⟩
  · refine ⟨_, rfl, ?_⟩
    unfold RunState.write
    split <;> exact hfollow
  · exact ⟨_, rfl, hfollow⟩
  · exact ⟨_, rfl, hfollow⟩

end

end Prequest.Workflow
