import Prequest.Cases.StatusTransition
import Prequest.Cases.TimerPlan
import Prequest.Lib.Loop

/-!
# What a dispatch sends

A case is split into work orders. For each task the service takes what the task leaves open from
the parent case, asks the resolver when nobody is named, chooses a policy, plans its timers, and
sends all of it to the database.

* `planTask_hashed`: at another time the same scope gives the same payload, but for due times.
-/

namespace Prequest.Dispatch

open Prequest.Lib Prequest.Cases

abbrev Uuid := String

/-! ## What the service reads -/

structure Parent extends StatusColumns where
  priority : Option String
  ticketTypeId : Option Uuid
  locationId : Option Uuid
  assetId : Option Uuid
  requesterPersonId : Option Uuid
  /-- The users whom `assertVisible(.., 'write')` lets pass. -/
  writers : List Uuid
  deriving DecidableEq, Repr

structure Assignees where
  teamId : Option Uuid := none
  userId : Option Uuid := none
  vendorId : Option Uuid := none
  deriving DecidableEq, Repr

def Assignees.isSome (a : Assignees) : Bool :=
  a.teamId.isSome || a.userId.isSome || a.vendorId.isSome

/-- A task. For `ticket_type_id` and its like, `null` and absent are the same. -/
structure DispatchDto where
  title : String
  description : Option String := none
  priority : Option String := none
  interactionMode : Option String := none
  ticketTypeId : Option Uuid := none
  locationId : Option Uuid := none
  assetId : Option Uuid := none
  assigned : Assignees := {}
  /-- Absent, `null` for no policy, or a policy. -/
  slaId : Option (Option Uuid) := none
  deriving DecidableEq, Repr

inductive AssignmentTarget where
  | team (teamId : Uuid)
  | user (userId : Uuid)
  | vendor (vendorId : Uuid)
  deriving DecidableEq, Repr

structure RoutingContext where
  requestTypeId : Uuid
  domain : Option String
  priority : String
  assetId : Option Uuid
  locationId : Option Uuid
  deriving DecidableEq, Repr

structure RoutingEvaluation where
  target : Option AssignmentTarget
  chosenBy : String
  strategy : String
  ruleId : Option Uuid := none
  trace : List String := []
  deriving DecidableEq, Repr

structure Config where
  requestTypes : List Uuid := []
  spaces : List Uuid := []
  assets : List Uuid := []
  routingRules : List Uuid := []
  teams : List Uuid := []
  users : List Uuid := []
  vendors : List Uuid := []
  policies : List SlaPolicy := []
  addBusinessMinutes : AddBusinessMinutes := fun _ start minutes => start + minutes * 60000
  /-- `request_types.domain`. -/
  domain : Uuid → Option String := fun _ => none
  /-- `RoutingService.evaluate` with `child_dispatch`. -/
  evaluate : RoutingContext → Except String RoutingEvaluation
  /-- `executor_sla_policy_id` of the scope override for a type, a location and an asset. -/
  executorSla : Uuid → Option Uuid → Option Uuid → Option Uuid := fun _ _ _ => none
  /-- `vendors.default_sla_policy_id`. -/
  vendorSla : Uuid → Option Uuid := fun _ => none
  /-- `teams.default_sla_policy_id`. -/
  teamSla : Uuid → Option Uuid := fun _ => none
  /-- `users.team_id`. -/
  userTeam : Uuid → Option Uuid := fun _ => none
  /-- `users.person_id`, for a login. -/
  personOf : Uuid → Option Uuid := fun _ => none

/-! ## The payload -/

/-- What a task takes from its parent where it names nothing itself. -/
structure Scope where
  ticketTypeId : Option Uuid
  locationId : Option Uuid
  assetId : Option Uuid
  priority : String
  deriving DecidableEq, Repr

def scopeOf (parent : Parent) (dto : DispatchDto) : Scope where
  ticketTypeId := dto.ticketTypeId.or parent.ticketTypeId
  locationId := dto.locationId.or parent.locationId
  assetId := dto.assetId.or parent.assetId
  priority := dto.priority.getD (parent.priority.getD "medium")

/-- `buildDispatchChildId`, by the key that it hashes. -/
inductive ChildId where
  | dispatch (clientRequestId : String)
  | dispatchBatch (clientRequestId : String) (index : Nat)
  deriving DecidableEq, Repr

/-- The keys `routing_*`. -/
structure RoutingPart where
  trace : List String := []
  chosenBy : String := "manual"
  strategy : String := "manual"
  ruleId : Option Uuid := none
  context : Option RoutingContext := none
  deriving DecidableEq, Repr

structure TaskPayload where
  childId : ChildId
  title : String
  description : Option String
  scope : Scope
  interactionMode : String
  assigned : Assignees
  /-- `sla_id` and `timers`, which are sent together. -/
  sla : Option (Uuid × List TimerPlan)
  routing : RoutingPart
  deriving DecidableEq, Repr

/-- `dispatch_strip_hash_server_fields` of an entry of `timers`. -/
def stripDueAt (timer : TimerPlan) : TimerPlan := { timer with dueAt := 0 }

/-- `dispatch_strip_hash_server_fields`. -/
def TaskPayload.hashed (t : TaskPayload) : TaskPayload :=
  { t with sla := t.sla.map fun sla => (sla.1, sla.2.map stripDueAt) }

/-! ## The plan of a task -/

def notOwned (owned : List Uuid) (id : Option Uuid) : Bool := id.any fun id => !owned.contains id

def policyIds (cfg : Config) : List Uuid := cfg.policies.map SlaPolicy.id

/-- `assertTenantOwned` and `validateAssigneesInTenant` on what the task names. -/
def checkReferences (cfg : Config) (dto : DispatchDto) : Except String Unit :=
  if notOwned cfg.requestTypes dto.ticketTypeId then .error "reference.not_in_tenant: request type"
  else if notOwned cfg.teams dto.assigned.teamId || notOwned cfg.users dto.assigned.userId ||
      notOwned cfg.vendors dto.assigned.vendorId then
    .error "reference.not_in_tenant: assignee"
  else if notOwned (policyIds cfg) (dto.slaId.getD none) then
    .error "reference.not_in_tenant: SLA policy"
  else if notOwned cfg.spaces dto.locationId then .error "reference.not_in_tenant: location"
  else if notOwned cfg.assets dto.assetId then .error "reference.not_in_tenant: asset"
  else .ok ()

def askResolver (cfg : Config) (scope : Scope) (assigned : Assignees) :
    Except String (Option (RoutingContext × RoutingEvaluation)) :=
  match assigned.isSome, scope.ticketTypeId with
  | false, some requestTypeId => do
      let context : RoutingContext :=
        { requestTypeId := requestTypeId, domain := cfg.domain requestTypeId
          priority := scope.priority, assetId := scope.assetId, locationId := scope.locationId }
      let evaluation ← cfg.evaluate context
      return some (context, evaluation)
  | _, _ => .ok none

/-- `chosenTeamId`, `chosenUserId` and `chosenVendorId`. -/
def chosen (assigned : Assignees) (routing : Option (RoutingContext × RoutingEvaluation)) :
    Assignees :=
  match routing.bind fun r => r.2.target with
  | some (.team teamId) => { assigned with teamId := some teamId }
  | some (.user userId) => { assigned with userId := some userId }
  | some (.vendor vendorId) => { assigned with vendorId := some vendorId }
  | none => assigned

def routingPart (routing : Option (RoutingContext × RoutingEvaluation)) : RoutingPart :=
  match routing with
  | none => {}
  | some (context, evaluation) =>
      { trace := evaluation.trace, chosenBy := evaluation.chosenBy
        strategy := evaluation.strategy, ruleId := evaluation.ruleId, context := some context }

def resolveChildSla (cfg : Config) (dto : DispatchDto) (scope : Scope) (assigned : Assignees) :
    Except String (Option Uuid) :=
  match dto.slaId with
  | some slaId => .ok slaId
  | none =>
      match scope.ticketTypeId.bind fun t => cfg.executorSla t scope.locationId scope.assetId with
      | some slaId =>
          if notOwned (policyIds cfg) (some slaId) then
            .error "reference.not_in_tenant: override executor SLA policy"
          else .ok (some slaId)
      | none =>
          .ok ((assigned.vendorId.bind cfg.vendorSla).or
            ((assigned.teamId.bind cfg.teamSla).or
              ((assigned.userId.bind cfg.userTeam).bind cfg.teamSla)))

/-- `sla_id` and the timers of its policy. -/
def planSla (cfg : Config) (now : Int) (slaId : Option Uuid) :
    Except String (Option (Uuid × List TimerPlan)) :=
  match slaId with
  | none => .ok none
  | some slaId => do
      let timers ← buildTimersForRpc cfg.policies cfg.addBusinessMinutes now slaId
      return some (slaId, timers)

def planTask (cfg : Config) (now : Int) (childId : ChildId) (dto : DispatchDto) (scope : Scope) :
    Except String TaskPayload := do
  checkReferences cfg dto
  let routing ← askResolver cfg scope dto.assigned
  let slaId ← resolveChildSla cfg dto scope (chosen dto.assigned routing)
  let sla ← planSla cfg now slaId
  return {
    childId := childId
    title := dto.title
    description := dto.description
    scope := scope
    interactionMode := dto.interactionMode.getD "internal"
    assigned := chosen dto.assigned routing
    sla := sla
    routing := routingPart routing }

/-! ## The service -/

def isBlank (s : String) : Bool := s.toList.all Char.isWhitespace

/-- The checks of the parent that both methods make. -/
def gateParent (parent : Parent) : Except String Unit :=
  if parent.statusCategory = "pending_approval" then .error "dispatch.parent_pending_approval"
  else if isTerminal parent.statusCategory then .error "dispatch.parent_terminal"
  else .ok ()

/-- `assertVisible(parentId, ctx, 'write')`, which the system actor skips. -/
def gateActor (actor : Option Uuid) (parent : Parent) : Except String Unit :=
  if notOwned parent.writers actor then .error "ticket.forbidden" else .ok ()

def checkTitle (dto : DispatchDto) : Except String Unit :=
  if isBlank dto.title then .error "dispatch.title_required" else .ok ()

/-- `DispatchService.dispatch` up to its call of the database. `actor` is none for the system. -/
def planDispatch (cfg : Config) (actor : Option Uuid) (parent : Parent) (now : Int)
    (clientRequestId : String) (dto : DispatchDto) : Except String TaskPayload := do
  gateActor actor parent
  checkTitle dto
  gateParent parent
  let task ← planTask cfg now (.dispatch clientRequestId) dto (scopeOf parent dto)
  if clientRequestId = "" then .error "command_operations.client_request_id_required"
  else return task

/-- One turn of the loop of `dispatchBatch`. -/
def planBatchTask (cfg : Config) (parent : Parent) (clock : Nat → Int) (clientRequestId : String)
    (task : DispatchDto × Nat) : Except String TaskPayload := do
  checkTitle task.1
  planTask cfg (clock task.2) (.dispatchBatch clientRequestId task.2) task.1
    (scopeOf parent task.1)

/-- `DispatchService.dispatchBatch` up to its call of the database. The clock is read for each
task. -/
def planDispatchBatch (cfg : Config) (actor : Option Uuid) (parent : Parent) (clock : Nat → Int)
    (clientRequestId : String) (tasks : List DispatchDto) : Except String (List TaskPayload) := do
  if clientRequestId = "" then .error "command_operations.client_request_id_required"
  else if tasks = [] then .error "dispatch_child_work_orders_batch.empty_tasks"
  else
    gateActor actor parent
    gateParent parent
    tasks.zipIdx.mapM (planBatchTask cfg parent clock clientRequestId)

/-! ## The same payload at another time -/

theorem planTimer_strip (add : AddBusinessMinutes) (policy : SlaPolicy) (start start' : Int)
    (timerType : Sla.TimerType) (minutes : Option Int) :
    (planTimer add policy start timerType minutes).map stripDueAt =
      (planTimer add policy start' timerType minutes).map stripDueAt := by
  unfold planTimer
  cases minutes with
  | none => rfl
  | some m => by_cases hm : m = 0 <;> simp [hm, stripDueAt]

variable {cfg : Config} {now : Int}

theorem planSla_strip {slaId : Option Uuid}
    {sla : Option (Uuid × List TimerPlan)} (h : planSla cfg now slaId = .ok sla) (now' : Int) :
    ∃ sla', planSla cfg now' slaId = .ok sla' ∧
      sla'.map (fun s => (s.1, s.2.map stripDueAt)) =
        sla.map fun s => (s.1, s.2.map stripDueAt) := by
  unfold planSla at h ⊢
  cases slaId with
  | none =>
    cases h
    exact ⟨none, rfl, rfl⟩
  | some slaId =>
    obtain ⟨timers, hbuild, hsla⟩ := bind_eq_ok.mp h
    cases hsla
    unfold buildTimersForRpc at hbuild
    cases hfind : cfg.policies.find? fun p => p.id == slaId with
    | none =>
      rw [hfind] at hbuild
      cases hbuild
    | some policy =>
      rw [hfind] at hbuild
      dsimp only at hbuild
      split at hbuild
      · rename_i htarget
        cases hbuild
        refine ⟨some (slaId, policy.timers cfg.addBusinessMinutes now'), ?_, ?_⟩
        · refine bind_eq_ok.mpr ⟨policy.timers cfg.addBusinessMinutes now', ?_, rfl⟩
          unfold buildTimersForRpc
          rw [hfind]
          exact if_pos htarget
        · simp only [Option.map_some, SlaPolicy.timers, List.map_append]
          rw [planTimer_strip _ _ now' now, planTimer_strip _ _ now' now]
      · cases hbuild

theorem planTask_hashed {childId : ChildId} {dto : DispatchDto}
    {scope : Scope} {t : TaskPayload} (h : planTask cfg now childId dto scope = .ok t) (now' : Int)
    (childId' : ChildId) :
    ∃ t', planTask cfg now' childId' dto scope = .ok t' ∧
      t'.hashed = { t with childId := childId' }.hashed := by
  obtain ⟨u, hreferences, h⟩ := bind_eq_ok.mp h
  obtain ⟨routing, hrouting, h⟩ := bind_eq_ok.mp h
  obtain ⟨slaId, hslaId, h⟩ := bind_eq_ok.mp h
  obtain ⟨sla, hsla, h⟩ := bind_eq_ok.mp h
  cases h
  obtain ⟨sla', hsla', hstrip⟩ := planSla_strip hsla now'
  refine ⟨_, bind_eq_ok.mpr ⟨u, hreferences, bind_eq_ok.mpr ⟨routing, hrouting,
    bind_eq_ok.mpr ⟨slaId, hslaId, bind_eq_ok.mpr ⟨sla', hsla', rfl⟩⟩⟩⟩, ?_⟩
  simp only [TaskPayload.hashed, hstrip]

theorem planTask_spec {childId : ChildId} {dto : DispatchDto}
    {scope : Scope} {t : TaskPayload} (h : planTask cfg now childId dto scope = .ok t) :
    t.childId = childId ∧ t.scope = scope ∧ t.title = dto.title ∧
      t.interactionMode = dto.interactionMode.getD "internal" := by
  obtain ⟨_, _, h⟩ := bind_eq_ok.mp h
  obtain ⟨_, _, h⟩ := bind_eq_ok.mp h
  obtain ⟨_, _, h⟩ := bind_eq_ok.mp h
  obtain ⟨_, _, h⟩ := bind_eq_ok.mp h
  cases h
  exact ⟨rfl, rfl, rfl, rfl⟩

end Prequest.Dispatch
