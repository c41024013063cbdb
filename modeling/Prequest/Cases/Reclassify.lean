import Prequest.Cases.TimerStart
import Prequest.Command.Operation
import Prequest.Outbox.Emit

/-!
# Reclassification of a case

`reclassify_ticket` gives a case another request type. It derives the location,
the scope override, the workflow and the SLA policy of the new type, compares
them with the plan of the caller, and writes them. Where the policy changes, the
timers of the old one have to go: with a new policy this is left to the handler
of `sla.timer_repointed_required`, without one the command stops them itself.

The cancelled workflow instances, the activities and the events about workflow
and routing are left out; none of them concerns a timer.
-/

namespace Prequest.Cases

open Prequest.Lib Prequest.Sla Prequest.Outbox Prequest.Command

/-! ## What the command reads -/

/-- The columns of `tickets` that only a reclassification reads or writes. -/
structure TicketScope where
  ticketTypeId : Option String := none
  locationId : Option String := none
  assetId : Option String := none
  workflowId : Option String := none
  deriving DecidableEq, Repr

/-- A row of `request_types`. -/
structure RequestType where
  active : Bool := true
  workflowDefinitionId : Option String := none
  slaPolicyId : Option String := none
  deriving DecidableEq, Repr

/-- The answer of `request_type_effective_scope_override`. -/
structure ScopeOverride where
  id : String
  workflowDefinitionId : Option String := none
  caseSlaPolicyId : Option String := none
  deriving DecidableEq, Repr

/-- The kinds of `validate_entity_in_tenant`. -/
inductive ReferenceKind where
  | requestType
  | space
  | scopeOverride
  | workflowDefinition
  | slaPolicy
  deriving DecidableEq, Repr

def ReferenceKind.text : ReferenceKind → String
  | .requestType => "request_type"
  | .space => "space"
  | .scopeOverride => "scope_override"
  | .workflowDefinition => "workflow_definition"
  | .slaPolicy => "sla_policy"

/-- The configuration of the tenant when the command is called. -/
structure ReclassifyDirectory where
  /-- `validate_entity_in_tenant` accepts the identifier. -/
  owned : ReferenceKind → String → Bool := fun _ _ => true
  requestType : String → Option RequestType
  /-- `assets.assigned_space_id`. -/
  assignedSpace : String → Option String := fun _ => none
  /-- `request_type_effective_scope_override`, given the type and the location. -/
  effectiveOverride : String → Option String → Option ScopeOverride := fun _ _ => none
  /-- `request_type_scope_overrides.updated_at`. -/
  overrideUpdatedAt : String → Option Int := fun _ => none
  /-- The ticket has an approval that is pending or delegated. -/
  openApproval : String → Bool := fun _ => false

/-- What a request type comes to at a location. -/
structure EffectiveConfig where
  locationId : Option String := none
  scopeOverrideId : Option String := none
  workflowDefinitionId : Option String := none
  slaPolicyId : Option String := none
  deriving DecidableEq, Repr

/-- `p_payload` and `p_automation_plan`. -/
structure ReclassifyInput where
  newRequestTypeId : Option String
  reason : Option String := none
  newLocationId : Option String := none
  plan : EffectiveConfig
  resolutionAt : Option Int := none
  deriving DecidableEq, Repr

/-- The arguments of `reclassify_ticket`, and the clock of its transaction. -/
structure ReclassifyCall where
  ticketId : String
  idempotencyKey : String
  input : ReclassifyInput
  now : Int
  deriving DecidableEq, Repr

/-! ## The checks -/

/-- The references that are validated, in the order of the source. -/
def ReclassifyInput.references (input : ReclassifyInput) (newRequestTypeId : String) :
    List (ReferenceKind × Option String) :=
  [(.requestType, some newRequestTypeId), (.space, input.newLocationId),
    (.space, input.plan.locationId), (.scopeOverride, input.plan.scopeOverrideId),
    (.workflowDefinition, input.plan.workflowDefinitionId), (.slaPolicy, input.plan.slaPolicyId)]

section

variable (dir : ReclassifyDirectory)

/-- The first reference that the tenant does not own. -/
def ReclassifyInput.unowned (input : ReclassifyInput)
    (newRequestTypeId : String) : Option (ReferenceKind × Option String) :=
  (input.references newRequestTypeId).find? fun r => r.2.any fun id => !dir.owned r.1 id

/-- `v_derived_location_id`. -/
def derivedLocation (scope : TicketScope) (input : ReclassifyInput) :
    Option String :=
  (input.newLocationId.or scope.locationId).or (scope.assetId.bind dir.assignedSpace)

def derivedConfig (scope : TicketScope) (input : ReclassifyInput)
    (newRequestTypeId : String) (requestType : RequestType) : EffectiveConfig :=
  let location := derivedLocation dir scope input
  let override := dir.effectiveOverride newRequestTypeId location
  { locationId := location
    scopeOverrideId := override.map ScopeOverride.id
    workflowDefinitionId :=
      (override.bind ScopeOverride.workflowDefinitionId).or requestType.workflowDefinitionId
    slaPolicyId := (override.bind ScopeOverride.caseSlaPolicyId).or requestType.slaPolicyId }

/-- `v_concurrent_override_edit`: the plan is out of date because the winning override was edited
after the plan was made. -/
def concurrentOverrideEdit (input : ReclassifyInput)
    (derived : EffectiveConfig) : Bool :=
  match input.resolutionAt with
  | none => false
  | some resolutionAt =>
      if derived.workflowDefinitionId = input.plan.workflowDefinitionId ∧
          derived.slaPolicyId = input.plan.slaPolicyId ∧
          derived.scopeOverrideId = input.plan.scopeOverrideId then false
      else match derived.scopeOverrideId, input.plan.scopeOverrideId with
        | some id, _ => (dir.overrideUpdatedAt id).any fun at' => decide (resolutionAt < at')
        | none, some id =>
            (dir.overrideUpdatedAt id).all fun at' => decide (resolutionAt < at')
        | none, none => false

/-- The checks of the command on a ticket, with the configuration that passes them. -/
def checkReclassify (ticket : Entity) (scope : TicketScope)
    (input : ReclassifyInput) (newRequestTypeId : String) : Except String EffectiveConfig :=
  if scope.ticketTypeId = some newRequestTypeId then .error "reclassify_ticket.target_same"
  else if isTerminal ticket.columns.statusCategory then
    .error "reclassify_ticket.terminal_ticket"
  else if dir.openApproval ticket.id then .error "reclassify_ticket.reclassify_during_approval"
  else match input.unowned dir newRequestTypeId with
    | some r => .error ("validate_entity_in_tenant." ++ r.1.text ++ "_not_in_tenant")
    | none =>
        match (dir.requestType newRequestTypeId).filter RequestType.active with
        | none => .error "reclassify_ticket.new_request_type_invalid"
        | some requestType =>
            let derived := derivedConfig dir scope input newRequestTypeId requestType
            let edited := concurrentOverrideEdit dir input derived
            if derived.locationId ≠ input.plan.locationId then
              .error "automation_plan.effective_location_mismatch"
            else if derived.workflowDefinitionId ≠ input.plan.workflowDefinitionId ∧
                edited = false then
              .error "automation_plan.semantic_mismatch"
            else if derived.slaPolicyId ≠ input.plan.slaPolicyId ∧ edited = false then
              .error "automation_plan.semantic_mismatch"
            else if derived.scopeOverrideId ≠ input.plan.scopeOverrideId ∧ edited = false then
              .error "automation_plan.scope_override_mismatch"
            else .ok derived

end

/-! ## The command -/

inductive TimerEventKey where
  /-- `sla.timer_repointed_required:<ticket>:reclassify:<key>`. -/
  | reclassify (ticketId idempotencyKey : String)
  /-- The key of an event that another command has emitted. -/
  | other (key : String)
  deriving DecidableEq, Repr

/-- The events about timers, by the handler that is registered for them. -/
inductive TimerEventPayload where
  /-- `sla.timer_recompute_required`. -/
  | recompute (payload : TimerPayload)
  /-- `sla.timer_repointed_required`. -/
  | repoint (payload : TimerPayload)
  deriving DecidableEq, Repr

/-- `v_result`. -/
structure ReclassifyResult where
  ticket : Entity
  scope : TicketScope
  concurrentOverrideEdit : Bool
  deriving DecidableEq, Repr

structure ReclassifyDb where
  tables : CaseTables
  scope : String → TicketScope
  ops : Table (CommandOperation String ReclassifyInput ReclassifyResult) := Table.empty
  events : Table (Event TimerEventKey TimerEventPayload) := Table.empty

/-- The assignment of the new policy. -/
def setSla (slaId : Option String) : Table.Assignment Entity where
  apply e := { e with slaId := slaId }
  key_apply _ := rfl

def clearDueDates : Table.Assignment Entity where
  apply e := { e with slaResponseDueAt := none, slaResolutionDueAt := none }
  key_apply _ := rfl

section

variable (tenantId : String)

def repointEvent (c : ReclassifyCall) (slaPolicyId : String) :
    Event TimerEventKey TimerEventPayload where
  idempotencyKey := .reclassify c.ticketId c.idempotencyKey
  payload :=
    .repoint
      { tenantId := some tenantId
        ticketId := some c.ticketId
        slaPolicyId := some slaPolicyId
        startedAt := some (some c.now) }

/-- What becomes of the timers and of the outbox when the policy of `ticket` becomes `slaId`. -/
def announceSla (db : ReclassifyDb) (c : ReclassifyCall) (ticket : Entity)
    (slaId : Option String) :
    Except String (CaseTables × Table (Event TimerEventKey TimerEventPayload)) :=
  let written := db.tables.setTicket ticket.id (setSla slaId)
  if ticket.slaId = slaId then .ok (written, db.events)
  else match slaId with
    | some slaPolicyId =>
        match emit db.events (repointEvent tenantId c slaPolicyId) with
        | .error .keyCollision => .error "outbox.emit: idempotency key collision"
        | .ok events => .ok (written, events)
    | none =>
        .ok
          ({ written.setTicket ticket.id clearDueDates with
              timers := stopTimersWhere (fun _ => true) c.now
                (some (c.input.reason.getD "reclassified")) ticket.id db.tables.timers },
            db.events)

/-- The body of the command for a ticket that it has found and locked. -/
def reclassifyRow (dir : ReclassifyDirectory) (db : ReclassifyDb)
    (c : ReclassifyCall) (newRequestTypeId : String) (ticket : Entity) :
    Except String ReclassifyDb :=
  match checkReclassify dir ticket (db.scope ticket.id) c.input newRequestTypeId with
  | .error message => .error message
  | .ok derived =>
      -- the foreign key of `tickets.sla_id`
      if derived.slaPolicyId.any fun id => (db.tables.policy? id).isNone then .error "23503"
      else match announceSla tenantId db c ticket derived.slaPolicyId with
        | .error message => .error message
        | .ok (tables, events) =>
            let scope : TicketScope :=
              { db.scope ticket.id with
                ticketTypeId := some newRequestTypeId
                locationId := derived.locationId
                workflowId := derived.workflowDefinitionId }
            .ok
              { tables := tables
                scope := fun id => if id = ticket.id then scope else db.scope id
                ops := finish (begin db.ops c.idempotencyKey c.input) c.idempotencyKey
                  { ticket := { ticket with slaId := derived.slaPolicyId }
                    scope := scope
                    concurrentOverrideEdit := concurrentOverrideEdit dir c.input derived }
                events := events }

/-- `reclassify_ticket`. -/
def reclassifyTicket (dir : ReclassifyDirectory) (db : ReclassifyDb)
    (c : ReclassifyCall) : Except String ReclassifyDb :=
  if c.idempotencyKey = "" then .error "reclassify_ticket: p_idempotency_key required"
  else match nullif c.input.newRequestTypeId with
    | none => .error "reclassify_ticket.input_invalid"
    | some newRequestTypeId =>
        match gate db.ops c.idempotencyKey c.input with
        | .error .payloadMismatch => .error "command_operations.payload_mismatch"
        | .error .unexpectedState => .error "command_operations.unexpected_state"
        | .ok (.cached _) => .ok db
        | .ok .proceed =>
            match db.tables.ticket? c.ticketId with
            | none => .error "reclassify_ticket.ticket_not_found"
            | some ticket => reclassifyRow tenantId dir db c newRequestTypeId ticket

end

/-! ## What a call that succeeds has done -/

/-- The call has moved `ticket` to the policy `slaId`, with these timers and events. -/
structure Reclassified (tenantId : String) (dir : ReclassifyDirectory) (db db' : ReclassifyDb)
    (c : ReclassifyCall) (ticket : Entity) (derived : EffectiveConfig) : Prop where
  found : db.tables.ticket? c.ticketId = some ticket
  checked : ∃ newRequestTypeId,
    checkReclassify dir ticket (db.scope ticket.id) c.input newRequestTypeId = .ok derived
  known : ∀ id, derived.slaPolicyId = some id → (db.tables.policy? id).isSome = true
  fresh : db.ops.get? c.idempotencyKey = none
  recorded : ∀ key, (db'.ops.get? key).isSome = true ↔
    key = c.idempotencyKey ∨ (db.ops.get? key).isSome = true
  announced : announceSla tenantId db c ticket derived.slaPolicyId = .ok (db'.tables, db'.events)

theorem reclassifyTicket_cases {tenantId : String} {dir : ReclassifyDirectory}
    {db db' : ReclassifyDb} {c : ReclassifyCall}
    (h : reclassifyTicket tenantId dir db c = .ok db') :
    db' = db ∨ ∃ ticket derived, Reclassified tenantId dir db db' c ticket derived := by
  unfold reclassifyTicket at h
  split_ifs at h with hkey
  cases htype : nullif c.input.newRequestTypeId with
  | none =>
    rw [htype] at h
    cases h
  | some newRequestTypeId =>
    simp only [htype] at h
    cases hgate : gate db.ops c.idempotencyKey c.input with
    | error problem =>
      rw [hgate] at h
      cases problem <;> cases h
    | ok answer =>
      rw [hgate] at h
      cases answer with
      | cached result =>
        left
        exact (Except.ok.inj h).symm
      | proceed =>
        have hfresh := gate_eq_proceed.mp hgate
        cases hfound : db.tables.ticket? c.ticketId with
        | none =>
          simp only [hfound] at h
          cases h
        | some ticket =>
          simp only [hfound] at h
          unfold reclassifyRow at h
          cases hchecked : checkReclassify dir ticket (db.scope ticket.id) c.input
              newRequestTypeId with
          | error message =>
            rw [hchecked] at h
            cases h
          | ok derived =>
            simp only [hchecked] at h
            split_ifs at h with hknown
            cases hannounced : announceSla tenantId db c ticket derived.slaPolicyId with
            | error message =>
              rw [hannounced] at h
              cases h
            | ok written =>
              rw [hannounced] at h
              obtain rfl := Except.ok.inj h
              right
              refine ⟨ticket, derived, hfound, ⟨newRequestTypeId, hchecked⟩, ?_, hfresh,
                ?_, hannounced⟩
              · intro id hid
                rw [hid] at hknown
                exact Option.isSome_iff_ne_none.mpr (by simpa using hknown)
              · intro key
                show (Table.get? (finish (begin db.ops _ _) _ _) key).isSome = true ↔ _
                rw [get?_finish_begin hfresh]
                split_ifs with hsame <;> simp [hsame]

/-- What becomes of the timers and of the outbox, by the new policy. -/
inductive Announced (tenantId : String) (db : ReclassifyDb) (c : ReclassifyCall) (ticket : Entity)
    (slaId : Option String) (tables : CaseTables)
    (events : Table (Event TimerEventKey TimerEventPayload)) : Prop where
  | same (hsla : ticket.slaId = slaId) (htimers : tables.timers = db.tables.timers)
      (hevents : events = db.events)
  | repointed {slaPolicyId : String} (hsla : slaId = some slaPolicyId)
      (hchanged : ticket.slaId ≠ slaId) (htimers : tables.timers = db.tables.timers)
      (hemit : emit db.events (repointEvent tenantId c slaPolicyId) = .ok events)
  | cleared (hsla : slaId = none) (reason : Option String)
      (htimers : tables.timers =
        stopTimersWhere (fun _ => true) c.now reason ticket.id db.tables.timers)
      (hevents : events = db.events)

theorem announceSla_cases {tenantId : String} {db : ReclassifyDb} {c : ReclassifyCall}
    {ticket : Entity} {slaId : Option String} {tables : CaseTables}
    {events : Table (Event TimerEventKey TimerEventPayload)}
    (h : announceSla tenantId db c ticket slaId = .ok (tables, events)) :
    Announced tenantId db c ticket slaId tables events ∧
      tables.policies = db.tables.policies ∧
      ∀ id, (tables.ticket? id).map Entity.slaId =
        (db.tables.ticket? id).map fun e => if id = ticket.id then slaId else e.slaId := by
  have hwritten : ∀ id, ((db.tables.setTicket ticket.id (setSla slaId)).ticket? id).map
      Entity.slaId = (db.tables.ticket? id).map fun e =>
        if id = ticket.id then slaId else e.slaId := by
    intro id
    rw [ticket?_setTicket _ _ _ fun _ => rfl, Option.map_map]
    congr 1
    funext e
    show (if id = ticket.id then (setSla slaId).apply e else e).slaId = _
    split_ifs <;> rfl
  unfold announceSla at h
  by_cases hsame : ticket.slaId = slaId
  · simp only [if_pos hsame] at h
    obtain ⟨rfl, rfl⟩ := Prod.mk.inj (Except.ok.inj h)
    exact ⟨.same hsame rfl rfl, rfl, hwritten⟩
  · simp only [if_neg hsame] at h
    cases hsla : slaId with
    | some slaPolicyId =>
      rw [hsla] at h hwritten hsame
      simp only at h
      cases hemit : emit db.events (repointEvent tenantId c slaPolicyId) with
      | error problem =>
        rw [hemit] at h
        cases problem
        cases h
      | ok events' =>
        rw [hemit] at h
        obtain ⟨rfl, rfl⟩ := Prod.mk.inj (Except.ok.inj h)
        exact ⟨.repointed rfl hsame rfl hemit, rfl, hwritten⟩
    | none =>
      rw [hsla] at h hwritten
      obtain ⟨rfl, rfl⟩ := Prod.mk.inj (Except.ok.inj h)
      refine ⟨.cleared rfl _ rfl rfl, rfl, ?_⟩
      intro id
      rw [← hwritten id]
      show (((db.tables.setTicket ticket.id (setSla none)).setTicket ticket.id
        clearDueDates).ticket? id).map Entity.slaId = _
      rw [ticket?_setTicket _ _ _ fun _ => rfl, Option.map_map]
      congr 1
      funext e
      show (if id = ticket.id then clearDueDates.apply e else e).slaId = e.slaId
      split_ifs <;> rfl

end Prequest.Cases
