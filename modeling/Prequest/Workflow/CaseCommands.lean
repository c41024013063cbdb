import Prequest.Cases.StatusTransition
import Prequest.Cases.TimerPlan
import Prequest.Workflow.Engine

/-!
# The commands behind the nodes of a workflow

The nodes `assign`, `update_ticket` and `create_child_tasks` change the case of
an instance through three commands of the database. Each command is a gate on
its idempotency key and a body; this module has the bodies.

An error of a body leaves nothing behind, because a command is one transaction.
-/

namespace Prequest.Workflow

open Prequest.Cases Prequest.Sla

/-! ## Rows -/

/-- A row of `tickets`. `other` has the columns that no command here writes. -/
structure Ticket extends StatusColumns where
  title : String := ""
  description : Option String := none
  priority : String := "medium"
  cost : Option Int := none
  tags : Option (List String) := some []
  watchers : Option (List String) := some []
  ticketTypeId : Option String := none
  locationId : Option String := none
  assetId : Option String := none
  assignedTeamId : Option String := none
  assignedUserId : Option String := none
  assignedVendorId : Option String := none
  slaId : Option String := none
  slaResponseDueAt : Option Int := none
  slaResolutionDueAt : Option Int := none
  slaResponseBreachedAt : Option Int := none
  slaResolutionBreachedAt : Option Int := none
  slaAtRisk : Bool := false
  slaPaused : Bool := false
  slaPausedAt : Option Int := none
  updatedAt : Int := 0
  other : List (String × Scalar) := []
  deriving DecidableEq, Repr

/-- A nullable column of text, as it is read. -/
def nullable : Option String → Scalar
  | none => .null
  | some s => .str s

/-- The columns that are read as one value. Times are read as text. -/
def Ticket.columns (isoText : Int → String) (t : Ticket) : List (String × Scalar) :=
  let time (at' : Option Int) : Scalar := nullable (at'.map isoText)
  [("status", .str t.status), ("status_category", .str t.statusCategory),
    ("waiting_reason", nullable t.waitingReason), ("resolved_at", time t.resolvedAt),
    ("closed_at", time t.closedAt), ("title", .str t.title),
    ("description", nullable t.description), ("priority", .str t.priority),
    ("cost", (t.cost.map Scalar.num).getD .null), ("ticket_type_id", nullable t.ticketTypeId),
    ("location_id", nullable t.locationId), ("asset_id", nullable t.assetId),
    ("assigned_team_id", nullable t.assignedTeamId),
    ("assigned_user_id", nullable t.assignedUserId),
    ("assigned_vendor_id", nullable t.assignedVendorId), ("sla_id", nullable t.slaId),
    ("sla_response_due_at", time t.slaResponseDueAt),
    ("sla_resolution_due_at", time t.slaResolutionDueAt),
    ("sla_response_breached_at", time t.slaResponseBreachedAt),
    ("sla_resolution_breached_at", time t.slaResolutionBreachedAt),
    ("sla_at_risk", .bool t.slaAtRisk), ("sla_paused", .bool t.slaPaused),
    ("sla_paused_at", time t.slaPausedAt), ("updated_at", .str (isoText t.updatedAt))] ++ t.other

/-- `ticket[field]`. -/
def Ticket.column (isoText : Int → String) (t : Ticket) : TicketRow :=
  fun name => (t.columns isoText).lookup name

/-- A row of `sla_timers` of the case. -/
structure CaseTimer where
  slaPolicyId : String
  plan : TimerPlan
  startedAt : Int
  stoppedAt : Option Int := none
  completedAt : Option Int := none
  deriving DecidableEq, Repr

/-- What `RoutingService.evaluate` answers. -/
structure RoutingEvaluation where
  teamId : Option String := none
  userId : Option String := none
  vendorId : Option String := none
  /-- `trace`, `chosen_by`, `strategy` and `rule_id`. -/
  provenance : String := ""
  deriving DecidableEq, Repr

/-- The values that a task and its parent give to routing and to the choice of a policy. -/
structure ChildScope where
  ticketTypeId : Option String
  locationId : Option String
  assetId : Option String
  deriving DecidableEq, Repr

/-- What the commands read besides the case. -/
structure Directory where
  teams : List String := []
  users : List String := []
  vendors : List String := []
  policies : List SlaPolicy := []
  addBusinessMinutes : AddBusinessMinutes := fun _ start minutes => start + minutes * 60000
  /-- `RoutingService.evaluate`, given the scope and the priority. -/
  evaluate : ChildScope → String → RoutingEvaluation := fun _ _ => {}
  /-- `resolveChildSla` without an explicit choice, given the assignees. -/
  childSla : ChildScope → Option String → Option String → Option String → Option String :=
    fun _ _ _ _ => none

/-! ## JSON values -/

/-- `->>`. -/
def scalarText : Scalar → Option String
  | .null => none
  | .bool b => some (if b then "true" else "false")
  | .num n => some (toString n)
  | .str s => some s

/-- `->>` of a value. An array or an object is no identifier. -/
def valueText : Value → Option String
  | .scalar s => scalarText s
  | .items _ => some "[]"
  | .fields _ => some "{}"

/-! ## `set_entity_assignment` -/

/-- The payload, by its three keys. -/
structure AssignmentPayload where
  teamId : Option Value := none
  userId : Option Value := none
  vendorId : Option Value := none
  deriving DecidableEq, Repr

/-- `case when v_has_key then nullif(p_payload->>key, '')::uuid else v_prev end`. -/
def keyed (payload : Option Value) (prev : Option String) : Option String :=
  match payload with
  | some v => nullif (valueText v)
  | none => prev

/-- `validate_assignees_in_tenant`. -/
def validateAssignees (dir : Directory) (team user vendor : Option String) : Except String Unit :=
  if team.any fun id => !dir.teams.contains id then
    .error "validate_assignees_in_tenant.assigned_team_id_not_in_tenant"
  else if user.any fun id => !dir.users.contains id then
    .error "validate_assignees_in_tenant.assigned_user_id_not_in_tenant"
  else if vendor.any fun id => !dir.vendors.contains id then
    .error "validate_assignees_in_tenant.assigned_vendor_id_not_in_tenant"
  else .ok ()

/-- `set_entity_assignment` without a reason, watchers or a decision. -/
def setEntityAssignment (dir : Directory) (now : Int) (p : AssignmentPayload) (t : Ticket) :
    Except String Ticket := do
  let team := keyed p.teamId t.assignedTeamId
  let user := keyed p.userId t.assignedUserId
  let vendor := keyed p.vendorId t.assignedVendorId
  validateAssignees dir team user vendor
  if team = t.assignedTeamId ∧ user = t.assignedUserId ∧ vendor = t.assignedVendorId then
    return t
  else
    return { t with
      assignedTeamId := team, assignedUserId := user, assignedVendorId := vendor
      statusCategory :=
        if (team.isSome || user.isSome || vendor.isSome) && t.statusCategory == "new" then
          "assigned"
        else t.statusCategory
      updatedAt := now }

/-! ## The case and its children -/

structure TaskPayload where
  title : String
  description : Option String
  priority : String
  interactionMode : String
  scope : ChildScope
  assignedTeamId : Option String
  assignedUserId : Option String
  assignedVendorId : Option String
  slaId : Option String
  timers : List TimerPlan
  routing : Option RoutingEvaluation
  deriving DecidableEq, Repr

/-- What `dispatch_idempotency_payload_hash` takes of a task: `due_at` is left out. -/
def TaskPayload.hashed (task : TaskPayload) : TaskPayload :=
  { task with timers := task.timers.map fun timer => { timer with dueAt := 0 } }

/-- A row of `work_orders` under the case. `buildDispatchChildId` makes its identifier from the
node and the position of the task. -/
structure Child where
  nodeId : String
  index : Nat
  task : TaskPayload
  statusCategory : String
  deriving DecidableEq, Repr

structure CaseState where
  ticket : Ticket
  timers : List CaseTimer := []
  children : List Child := []
  deriving DecidableEq, Repr

def openChildren (children : List Child) : Nat :=
  (children.filter fun c => !isTerminal c.statusCategory).length

/-! ## `update_entity_sla` -/

structure SlaPayload where
  slaId : Scalar
  timers : Option (List TimerPlan) := none
  deriving DecidableEq, Repr

def dueOf (timers : List TimerPlan) (timerType : TimerType) : Option Int :=
  (timers.find? fun timer => timer.timerType == timerType).map TimerPlan.dueAt

/-- `update_entity_sla`. -/
def updateEntitySla (dir : Directory) (now : Int) (p : SlaPayload) (s : CaseState) :
    Except String CaseState :=
  let slaId := nullif (scalarText p.slaId)
  let plans := p.timers.getD []
  if slaId = s.ticket.slaId ∧ plans = [] then .ok s
  else if slaId.isSome ∧ plans = [] then .error "update_entity_sla.timers_required"
  else if slaId.any fun id => !dir.policies.any fun policy => policy.id == id then
    .error "validate_entity_in_tenant.not_in_tenant"
  else
    let stopped := s.timers.map fun timer =>
      if timer.stoppedAt.isNone && timer.completedAt.isNone then
        { timer with stoppedAt := some now }
      else timer
    let installed :=
      match slaId with
      | none => []
      | some id => plans.map fun plan =>
          ({ slaPolicyId := id, plan := plan, startedAt := now } : CaseTimer)
    let due (timerType : TimerType) : Option Int :=
      if slaId.isSome then dueOf plans timerType else none
    .ok
      { s with
        ticket :=
          { s.ticket with
            slaId := slaId
            slaResponseDueAt := due .response
            slaResolutionDueAt := due .resolution
            slaResponseBreachedAt := none
            slaResolutionBreachedAt := none
            slaAtRisk := false
            slaPaused := false
            slaPausedAt := none
            updatedAt := now }
        timers := stopped ++ installed }

/-! ## `update_entity_combined` -/

/-- `p_patches`, by its keys. -/
structure Patches where
  status : StatusPayload := {}
  priority : Option Scalar := none
  assignment : Option AssignmentPayload := none
  sla : Option SlaPayload := none
  title : Option Scalar := none
  description : Option Scalar := none
  cost : Option Scalar := none
  tags : Option Scalar := none
  watchers : Option Scalar := none
  deriving DecidableEq, Repr

def statusBranch (now : Int) (p : StatusPayload) (s : CaseState) : Except String CaseState := do
  if p = {} then return s
  match ← transition .case (openChildren s.children) now s.ticket.toStatusColumns p with
  | none => return s
  | some columns =>
      return { s with ticket := { s.ticket with toStatusColumns := columns, updatedAt := now } }

def priorities : List String := ["low", "medium", "high", "critical"]

def priorityBranch (now : Int) (p : Option Scalar) (s : CaseState) : Except String CaseState :=
  match p with
  | none => .ok s
  | some v =>
      match scalarText v with
      | none => .error "update_entity_combined.invalid_priority"
      | some priority =>
          if !priorities.contains priority then .error "update_entity_combined.invalid_priority"
          else if priority = s.ticket.priority then .ok s
          else .ok { s with ticket := { s.ticket with priority := priority, updatedAt := now } }

def assignmentBranch (dir : Directory) (now : Int) (p : Option AssignmentPayload)
    (s : CaseState) : Except String CaseState :=
  match p with
  | none => .ok s
  | some payload => (setEntityAssignment dir now payload s.ticket).map fun t =>
      { s with ticket := t }

def slaBranch (dir : Directory) (now : Int) (p : Option SlaPayload) (s : CaseState) :
    Except String CaseState :=
  match p with
  | none => .ok s
  | some payload => updateEntitySla dir now payload s

def newTitle (p : Option Scalar) (prev : String) : Except String String :=
  match p with
  | none => .ok prev
  | some v =>
      match nullif (scalarText v) with
      | none => .error "update_entity_combined.invalid_metadata"
      | some title => .ok title

def newCost (p : Option Scalar) (prev : Option Int) : Except String (Option Int) :=
  match p with
  | none => .ok prev
  | some .null => .ok none
  | some (.num n) => if n < 0 then .error "update_entity_combined.invalid_cost" else .ok (some n)
  | some _ => .error "update_entity_combined.invalid_cost"

/-- The new tags or watchers. A single value is no list. -/
def newList (error : String) (p : Option Scalar) (prev : Option (List String)) :
    Except String (Option (List String)) :=
  match p with
  | none => .ok prev
  | some .null => .ok none
  | some _ => .error error

def metadataBranch (now : Int) (p : Patches) (s : CaseState) : Except String CaseState := do
  let t := s.ticket
  let title ← newTitle p.title t.title
  let description := (p.description.map scalarText).getD t.description
  let cost ← newCost p.cost t.cost
  let tags ← newList "update_entity_combined.invalid_metadata" p.tags t.tags
  let watchers ← newList "update_entity_combined.invalid_watcher" p.watchers t.watchers
  if title = t.title ∧ description = t.description ∧ cost = t.cost ∧ tags = t.tags ∧
      watchers = t.watchers then
    return s
  else
    return { s with
      ticket :=
        { t with
          title := title, description := description, cost := cost, tags := tags
          watchers := watchers, updatedAt := now } }

/-- `update_entity_combined`. -/
def updateEntityCombined (dir : Directory) (now : Int) (p : Patches) (s : CaseState) :
    Except String CaseState := do
  let s ← statusBranch now p.status s
  let s ← priorityBranch now p.priority s
  let s ← assignmentBranch dir now p.assignment s
  let s ← slaBranch dir now p.sla s
  metadataBranch now p s

/-! ## `dispatch_child_work_orders_batch` -/

/-- The insert of one child, and the rollup that its trigger makes. -/
def insertChild (dir : Directory) (now : Int) (nodeId : String) (s : CaseState)
    (p : TaskPayload × Nat) : Except String CaseState := do
  let task := p.1
  if !(["internal", "external"].contains task.interactionMode) then
    .error "dispatch_child_work_order.invalid_payload"
  validateAssignees dir task.assignedTeamId task.assignedUserId task.assignedVendorId
  if s.children.any fun c => c.nodeId == nodeId && c.index == p.2 then .error "23505"
  let assigned := task.assignedTeamId.isSome || task.assignedUserId.isSome ||
    task.assignedVendorId.isSome
  let child : Child :=
    { nodeId := nodeId, index := p.2, task := task
      statusCategory := if assigned then "assigned" else "new" }
  let children := s.children ++ [child]
  let columns := rollup now (children.map Child.statusCategory) s.ticket.toStatusColumns
  let updatedAt := if columns = s.ticket.toStatusColumns then s.ticket.updatedAt else now
  return { s with
    ticket := { s.ticket with toStatusColumns := columns, updatedAt := updatedAt }
    children := children }

/-- `dispatch_child_work_orders_batch`, past its gate. -/
def dispatchBatch (dir : Directory) (now : Int) (nodeId : String) (tasks : List TaskPayload)
    (s : CaseState) : Except String CaseState :=
  if s.ticket.statusCategory = "pending_approval" ∨ isTerminal s.ticket.statusCategory = true then
    .error "dispatch_child_work_order.parent_not_dispatchable"
  else tasks.zipIdx.foldlM (insertChild dir now nodeId) s

end Prequest.Workflow
