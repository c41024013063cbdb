import Prequest.Command.Operation
import Prequest.Dispatch.Plan

/-!
# The two commands of a dispatch

`dispatch_child_work_order` writes one work order, and `dispatch_child_work_orders_batch` writes one
for each of its tasks, in one transaction. Both write a routing decision, the timers and an
activity on the parent beside it. They make the same checks in a different order.

* `insertTask_ok`, `dispatchChildWorkOrder_ok`, `dispatchChildWorkOrdersBatch_ok`: what they do.
-/

namespace Prequest.Dispatch

open Prequest.Lib Prequest.Command Prequest.Cases

/-! ## Rows -/

structure WorkOrderRow where
  id : ChildId
  ticketTypeId : Option Uuid
  title : String
  description : Option String
  priority : Option String
  interactionMode : String
  locationId : Option Uuid
  assetId : Option Uuid
  requesterPersonId : Option Uuid
  status : String
  statusCategory : String
  assigned : Assignees
  slaId : Option Uuid
  slaResponseDueAt : Option Int
  slaResolutionDueAt : Option Int
  deriving DecidableEq, Repr

/-- A row of `routing_decisions`. -/
structure DecisionRow where
  workOrderId : ChildId
  strategy : String
  chosen : Assignees
  chosenBy : String
  ruleId : Option Uuid
  trace : List String
  context : Option RoutingContext
  deriving DecidableEq, Repr

/-- A row of `sla_timers`. -/
structure TimerRow where
  workOrderId : ChildId
  slaPolicyId : Uuid
  plan : TimerPlan
  startedAt : Int
  deriving DecidableEq, Repr

/-- A row of `ticket_activities` on the parent. -/
structure ActivityRow where
  childId : ChildId
  authorPersonId : Option Uuid
  assigned : Assignees
  slaId : Option Uuid
  deriving DecidableEq, Repr

@[ext] structure Rows where
  workOrders : List WorkOrderRow := []
  decisions : List DecisionRow := []
  timers : List TimerRow := []
  activities : List ActivityRow := []
  deriving DecidableEq, Repr

def Rows.append (r s : Rows) : Rows where
  workOrders := r.workOrders ++ s.workOrders
  decisions := r.decisions ++ s.decisions
  timers := r.timers ++ s.timers
  activities := r.activities ++ s.activities

def dueOf (timers : List TimerPlan) (timerType : Sla.TimerType) : Option Int :=
  (timers.reverse.find? fun timer => timer.timerType == timerType).map TimerPlan.dueAt

/-- `nullif(priority, '')`, or the parent's. -/
def storedPriority (parent : Parent) (t : TaskPayload) : Option String :=
  if t.scope.priority = "" then parent.priority else some t.scope.priority

def childCategory (assigned : Assignees) : String :=
  if assigned.isSome then "assigned" else "new"

def workOrderRow (parent : Parent) (t : TaskPayload) : WorkOrderRow where
  id := t.childId
  ticketTypeId := t.scope.ticketTypeId.or parent.ticketTypeId
  title := t.title
  description := t.description.filter (· ≠ "")
  priority := storedPriority parent t
  interactionMode := t.interactionMode
  locationId := t.scope.locationId.or parent.locationId
  assetId := t.scope.assetId.or parent.assetId
  requesterPersonId := parent.requesterPersonId
  status := "new"
  statusCategory := childCategory t.assigned
  assigned := t.assigned
  slaId := t.sla.map Prod.fst
  slaResponseDueAt := t.sla.bind fun sla => dueOf sla.2 .response
  slaResolutionDueAt := t.sla.bind fun sla => dueOf sla.2 .resolution

def decisionRow (t : TaskPayload) : DecisionRow where
  workOrderId := t.childId
  strategy := t.routing.strategy
  chosen := t.assigned
  chosenBy := t.routing.chosenBy
  ruleId := t.routing.ruleId
  trace := t.routing.trace
  context := t.routing.context

def timerRows (now : Int) (t : TaskPayload) : List TimerRow :=
  match t.sla with
  | none => []
  | some (slaId, timers) => timers.map fun timer =>
      { workOrderId := t.childId, slaPolicyId := slaId, plan := timer, startedAt := now }

def activityRow (author : Option Uuid) (t : TaskPayload) : ActivityRow where
  childId := t.childId
  authorPersonId := author
  assigned := t.assigned
  slaId := t.sla.map Prod.fst

def rowsOf (now : Int) (parent : Parent) (author : Option Uuid) (t : TaskPayload) : Rows where
  workOrders := [workOrderRow parent t]
  decisions := [decisionRow t]
  timers := timerRows now t
  activities := [activityRow author t]

/-! ## The commands -/

/-- `dispatch:<parent>:<client request id>` or `dispatch_batch:<parent>:<client request id>`. -/
inductive OperationKey where
  | dispatch (clientRequestId : String)
  | dispatchBatch (clientRequestId : String)
  deriving DecidableEq, Repr

def ChildId.key : ChildId → OperationKey
  | .dispatch clientRequestId => .dispatch clientRequestId
  | .dispatchBatch clientRequestId _ => .dispatchBatch clientRequestId

/-- The summary of a child in `cached_result`. -/
structure DispatchResult where
  childId : ChildId
  statusCategory : String
  assigned : Assignees
  slaId : Option Uuid
  routingChosenBy : String
  deriving DecidableEq, Repr

def resultOf (t : TaskPayload) : DispatchResult where
  childId := t.childId
  statusCategory := childCategory t.assigned
  assigned := t.assigned
  slaId := t.sla.map Prod.fst
  routingChosenBy := t.routing.chosenBy

/-- A case with its work orders. The hash of a payload is the payload without its due times. -/
structure Store where
  parent : Parent
  rows : Rows
  operations : Table (CommandOperation OperationKey (List TaskPayload) (List DispatchResult))

def checkShape (t : TaskPayload) : Except String Unit :=
  if isBlank t.title then
    .error "dispatch_child_work_order.invalid_payload: title must be a non-empty string"
  else if t.interactionMode ≠ "internal" ∧ t.interactionMode ≠ "external" then
    .error "dispatch_child_work_order.invalid_payload: interaction_mode must be internal or external"
  else .ok ()

def checkDispatchable (parent : Parent) : Except String Unit :=
  if parent.statusCategory = "pending_approval" ∨ isTerminal parent.statusCategory = true then
    .error "dispatch_child_work_order.parent_not_dispatchable"
  else .ok ()

/-- `validate_entity_in_tenant` and `validate_assignees_in_tenant`. -/
def checkTenant (cfg : Config) (t : TaskPayload) : Except String Unit :=
  if notOwned cfg.requestTypes t.scope.ticketTypeId || notOwned cfg.spaces t.scope.locationId ||
      notOwned cfg.assets t.scope.assetId || notOwned (policyIds cfg) (t.sla.map Prod.fst) ||
      notOwned cfg.routingRules t.routing.ruleId then
    .error "validate_entity_in_tenant.not_in_tenant"
  else if notOwned cfg.teams t.assigned.teamId || notOwned cfg.users t.assigned.userId ||
      notOwned cfg.vendors t.assigned.vendorId then
    .error "validate_assignees_in_tenant.not_in_tenant"
  else .ok ()

/-- `rollup_parent_status_from_work_orders`. -/
def rollupParent (now : Int) (rows : Rows) (parent : Parent) : Parent :=
  { parent with
    toStatusColumns :=
      rollup now (rows.workOrders.map WorkOrderRow.statusCategory) parent.toStatusColumns }

/-- The inserts of one task. `parent` is the row that the command locked, and the triggers see the
row as it is. -/
def insertTask (now : Int) (parent : Parent) (author : Option Uuid) (t : TaskPayload) (s : Store) :
    Except String Store :=
  if isTerminal s.parent.statusCategory then .error "work_orders.parent_closed"
  else if s.rows.workOrders.any fun w => w.id == t.childId then .error "23505"
  else if t.sla.any fun sla => sla.2.isEmpty then
    .error "dispatch_child_work_order.timers_required"
  else
    let rows := s.rows.append (rowsOf now parent author t)
    .ok { s with parent := rollupParent now rows s.parent, rows := rows }

def authorOf (cfg : Config) (actor : Option Uuid) : Option Uuid := actor.bind cfg.personOf

/-- The marker of a command, its writes, and its recorded success. -/
def Store.recorded (s : Store) (key : OperationKey) (tasks : List TaskPayload) : Store :=
  { s with
    operations :=
      finish (begin s.operations key (tasks.map TaskPayload.hashed)) key (tasks.map resultOf) }

/-- `dispatch_child_work_order`. -/
def dispatchChildWorkOrder (cfg : Config) (actor : Option Uuid) (now : Int)
    (clientRequestId : String) (t : TaskPayload) (s : Store) : Except String Store := do
  checkShape t
  match gate s.operations (.dispatch clientRequestId) [t.hashed] with
  | .error e => .error e.message
  | .ok (.cached _) => .ok s
  | .ok .proceed =>
      checkDispatchable s.parent
      checkTenant cfg t
      let s' ← insertTask now s.parent (authorOf cfg actor) t s
      return s'.recorded (.dispatch clientRequestId) [t]

/-- One turn of the loop of the batch. -/
def dispatchTask (cfg : Config) (now : Int) (parent : Parent) (author : Option Uuid) (s : Store)
    (t : TaskPayload) : Except String Store := do
  checkShape t
  checkTenant cfg t
  insertTask now parent author t s

/-- `dispatch_child_work_orders_batch`. -/
def dispatchChildWorkOrdersBatch (cfg : Config) (actor : Option Uuid) (now : Int)
    (clientRequestId : String) (tasks : List TaskPayload) (s : Store) : Except String Store :=
  if tasks = [] then .error "dispatch_child_work_orders_batch.empty_tasks"
  else match gate s.operations (.dispatchBatch clientRequestId) (tasks.map TaskPayload.hashed) with
  | .error e => .error e.message
  | .ok (.cached _) => .ok s
  | .ok .proceed => do
      checkDispatchable s.parent
      let s' ← tasks.foldlM (dispatchTask cfg now s.parent (authorOf cfg actor)) s
      return s'.recorded (.dispatchBatch clientRequestId) tasks

/-! ## What the commands do -/

def Store.committed (s : Store) (key : OperationKey) : Bool := (s.operations.get? key).isSome

def rowsOfAll (now : Int) (parent : Parent) (author : Option Uuid) (tasks : List TaskPayload) :
    Rows where
  workOrders := tasks.map (workOrderRow parent)
  decisions := tasks.map decisionRow
  timers := tasks.flatMap (timerRows now)
  activities := tasks.map (activityRow author)

/-- The columns of a case that a rollup leaves alone. -/
structure SameScope (p q : Parent) : Prop where
  priority : q.priority = p.priority
  ticketTypeId : q.ticketTypeId = p.ticketTypeId
  locationId : q.locationId = p.locationId
  assetId : q.assetId = p.assetId
  requesterPersonId : q.requesterPersonId = p.requesterPersonId
  writers : q.writers = p.writers

theorem SameScope.refl (p : Parent) : SameScope p p := ⟨rfl, rfl, rfl, rfl, rfl, rfl⟩

variable {p q : Parent}

theorem SameScope.rollup (h : SameScope p q) (now : Int) (rows : Rows) :
    SameScope p (rollupParent now rows q) :=
  ⟨h.priority, h.ticketTypeId, h.locationId, h.assetId, h.requesterPersonId, h.writers⟩

theorem SameScope.scopeOf (h : SameScope p q) (dto : DispatchDto) :
    scopeOf q dto = scopeOf p dto := by
  unfold Dispatch.scopeOf
  rw [h.priority, h.ticketTypeId, h.locationId, h.assetId]

theorem SameScope.workOrderRow (h : SameScope p q) (t : TaskPayload) :
    workOrderRow q t = workOrderRow p t := by
  unfold Dispatch.workOrderRow storedPriority
  rw [h.priority, h.ticketTypeId, h.locationId, h.assetId, h.requesterPersonId]

theorem SameScope.rowsOf (h : SameScope p q) (now : Int) (author : Option Uuid)
    (t : TaskPayload) : rowsOf now q author t = rowsOf now p author t := by
  unfold Dispatch.rowsOf
  rw [h.workOrderRow]

variable {now : Int} {parent : Parent} {author : Option Uuid} {t : TaskPayload} {s s' : Store}

theorem insertTask_ok : insertTask now parent author t s = .ok s' ↔
      isTerminal s.parent.statusCategory = false ∧ (∀ w ∈ s.rows.workOrders, w.id ≠ t.childId) ∧
        (∀ sla, t.sla = some sla → sla.2 ≠ []) ∧
        s' = { s with
          parent := rollupParent now (s.rows.append (rowsOf now parent author t)) s.parent
          rows := s.rows.append (rowsOf now parent author t) } := by
  have hany : (s.rows.workOrders.any fun w => w.id == t.childId) = false ↔
      ∀ w ∈ s.rows.workOrders, w.id ≠ t.childId := by
    simp
  have hsla : (t.sla.any fun sla => sla.2.isEmpty) = false ↔
      ∀ sla, t.sla = some sla → sla.2 ≠ [] := by
    cases t.sla <;> simp
  unfold insertTask
  rw [← hany, ← hsla]
  split
  · rename_i hterminal
    simp [hterminal]
  rename_i hopen
  split
  · rename_i hid
    simp [hid]
  rename_i hid
  split
  · rename_i hempty
    simp [hempty]
  rename_i hempty
  simp only [Bool.not_eq_true] at hopen hid hempty
  rw [hopen, hid, hempty]
  constructor
  · intro h
    exact ⟨rfl, rfl, rfl, (Except.ok.inj h).symm⟩
  · rintro ⟨_, _, _, rfl⟩
    rfl

variable {cfg : Config} {clientRequestId : String} {actor : Option Uuid}

theorem dispatchChildWorkOrder_ok :
    dispatchChildWorkOrder cfg actor now clientRequestId t s = .ok s' ↔
      checkShape t = .ok () ∧
        ((∃ result, s.operations.get? (.dispatch clientRequestId) =
            some ⟨.dispatch clientRequestId, [t.hashed], .success result⟩ ∧ s' = s) ∨
          (s.operations.get? (.dispatch clientRequestId) = none ∧
            checkDispatchable s.parent = .ok () ∧ checkTenant cfg t = .ok () ∧
            ∃ mid, insertTask now s.parent (authorOf cfg actor) t s = .ok mid ∧
              s' = mid.recorded (.dispatch clientRequestId) [t])) := by
  unfold dispatchChildWorkOrder
  rw [bind_eq_ok]
  constructor
  · rintro ⟨_, hshape, h⟩
    refine ⟨hshape, ?_⟩
    split at h
    · cases h
    · rename_i result hgate
      cases h
      exact .inl ⟨result, gate_eq_cached.mp hgate, rfl⟩
    · rename_i hgate
      obtain ⟨_, hdispatchable, h⟩ := bind_eq_ok.mp h
      obtain ⟨_, htenant, h⟩ := bind_eq_ok.mp h
      obtain ⟨mid, hinsert, h⟩ := bind_eq_ok.mp h
      cases h
      exact .inr ⟨gate_eq_proceed.mp hgate, hdispatchable, htenant, mid, hinsert, rfl⟩
  · rintro ⟨hshape, ⟨result, hget, rfl⟩ | ⟨hget, hdispatchable, htenant, mid, hinsert, rfl⟩⟩
    · refine ⟨(), hshape, ?_⟩
      rw [gate_eq_cached.mpr hget]
    · refine ⟨(), hshape, ?_⟩
      rw [gate_eq_proceed.mpr hget]
      exact bind_eq_ok.mpr ⟨(), hdispatchable, bind_eq_ok.mpr ⟨(), htenant,
        bind_eq_ok.mpr ⟨mid, hinsert, rfl⟩⟩⟩

variable {tasks : List TaskPayload}

theorem dispatchChildWorkOrdersBatch_ok :
    dispatchChildWorkOrdersBatch cfg actor now clientRequestId tasks s = .ok s' ↔
      tasks ≠ [] ∧
        ((∃ result, s.operations.get? (.dispatchBatch clientRequestId) =
            some ⟨.dispatchBatch clientRequestId, tasks.map TaskPayload.hashed, .success result⟩ ∧
              s' = s) ∨
          (s.operations.get? (.dispatchBatch clientRequestId) = none ∧
            checkDispatchable s.parent = .ok () ∧
            ∃ mid, tasks.foldlM (dispatchTask cfg now s.parent (authorOf cfg actor)) s = .ok mid ∧
              s' = mid.recorded (.dispatchBatch clientRequestId) tasks)) := by
  unfold dispatchChildWorkOrdersBatch
  by_cases hnil : tasks = []
  · simp [hnil]
  rw [if_neg hnil]
  constructor
  · intro h
    refine ⟨hnil, ?_⟩
    split at h
    · cases h
    · rename_i result hgate
      cases h
      exact .inl ⟨result, gate_eq_cached.mp hgate, rfl⟩
    · rename_i hgate
      obtain ⟨_, hdispatchable, h⟩ := bind_eq_ok.mp h
      obtain ⟨mid, hfold, h⟩ := bind_eq_ok.mp h
      cases h
      exact .inr ⟨gate_eq_proceed.mp hgate, hdispatchable, mid, hfold, rfl⟩
  · rintro ⟨_, ⟨result, hget, rfl⟩ | ⟨hget, hdispatchable, mid, hfold, rfl⟩⟩
    · rw [gate_eq_cached.mpr hget]
    · rw [gate_eq_proceed.mpr hget]
      exact bind_eq_ok.mpr ⟨(), hdispatchable, bind_eq_ok.mpr ⟨mid, hfold, rfl⟩⟩

theorem rollup_open {children : List String} {p : StatusColumns}
    (hp : p.statusCategory ≠ "pending_approval" ∧ isTerminal p.statusCategory = false)
    (hchildren : ∃ c ∈ children, isTerminal c = false) :
    (rollup now children p).statusCategory ≠ "pending_approval" ∧
      isTerminal (rollup now children p).statusCategory = false := by
  obtain ⟨c, hc, hopen⟩ := hchildren
  have hany : (children.any fun c => !isTerminal c) = true :=
    List.any_eq_true.mpr ⟨c, hc, by rw [hopen]; rfl⟩
  unfold rollup
  rw [hany]
  split
  · split
    · exact hp
    · exact ⟨show "in_progress" ≠ _ by decide, show isTerminal "in_progress" = false by decide⟩
  · rw [if_pos rfl]
    split
    · exact hp
    · exact ⟨show "assigned" ≠ _ by decide, show isTerminal "assigned" = false by decide⟩

theorem childCategory_open (assigned : Assignees) :
    isTerminal (childCategory assigned) = false := by
  unfold childCategory
  split <;> decide

theorem checkDispatchable_ok : checkDispatchable p = .ok () ↔
    p.statusCategory ≠ "pending_approval" ∧ isTerminal p.statusCategory = false := by
  unfold checkDispatchable
  split
  · rename_i h
    simp only [reduceCtorEq, false_iff, not_and, Bool.not_eq_false]
    intro hne
    exact h.resolve_left hne
  · rename_i h
    simpa using h

theorem dispatchable_insert (h : checkDispatchable s.parent = .ok ()) : checkDispatchable
      (rollupParent now (s.rows.append (rowsOf now parent author t)) s.parent) = .ok () := by
  refine checkDispatchable_ok.mpr (rollup_open (checkDispatchable_ok.mp h) ?_)
  refine ⟨childCategory t.assigned, ?_, childCategory_open t.assigned⟩
  refine List.mem_map.mpr ⟨workOrderRow parent t, ?_, rfl⟩
  exact List.mem_append_right _ (List.mem_singleton.mpr rfl)

theorem foldlM_dispatchTask (h : tasks.foldlM (dispatchTask cfg now parent author) s = .ok s') :
    s'.rows = s.rows.append (rowsOfAll now parent author tasks) ∧
      s'.operations = s.operations ∧ SameScope s.parent s'.parent := by
  induction tasks generalizing s with
  | nil =>
    cases h
    refine ⟨?_, rfl, SameScope.refl _⟩
    simp [Rows.append, rowsOfAll]
  | cons t tasks ih =>
    rw [List.foldlM_cons] at h
    obtain ⟨mid, hmid, h⟩ := bind_eq_ok.mp h
    obtain ⟨_, _, hmid⟩ := bind_eq_ok.mp hmid
    obtain ⟨_, _, hmid⟩ := bind_eq_ok.mp hmid
    obtain ⟨_, _, _, rfl⟩ := insertTask_ok.mp hmid
    obtain ⟨hrows, hoperations, hscope⟩ := ih h
    refine ⟨?_, hoperations, ?_⟩
    · rw [hrows]
      ext1 <;> simp [Rows.append, rowsOfAll, rowsOf]
    · have hfirst := (SameScope.refl s.parent).rollup now
        (s.rows.append (rowsOf now parent author t))
      exact ⟨hscope.priority, hscope.ticketTypeId, hscope.locationId, hscope.assetId,
        hscope.requesterPersonId, hscope.writers⟩

theorem get?_recorded {key : OperationKey} (h : s.operations.get? key = none) (k : OperationKey) :
    (s.recorded key tasks).operations.get? k =
      if k = key then some ⟨key, tasks.map TaskPayload.hashed, .success (tasks.map resultOf)⟩
      else s.operations.get? k :=
  get?_finish_begin h k

end Prequest.Dispatch
