import Prequest.Approval.TicketGrant
import Prequest.Command.Operation
import Prequest.Lib.Loop

/-!
# The assignment of a case

`set_entity_assignment` writes who works on a case. People call it to reassign a case, with a
reason. The handler of the routing events calls it with what the resolver decided, and lets it
clear the routing status in the same transaction.

* `setEntityAssignment_cases`, `reassign_cases`: what they can do.
-/

namespace Prequest.Evaluation

open Prequest.Lib Prequest.Command
open Prequest.Approval (StatusCategory)

abbrev Uuid := Nat

/-- The id of an outbox event, in the order of emission. -/
abbrev EventId := Nat

/-! ## The resolver's answer -/

inductive AssignmentTarget where
  | team (teamId : Uuid)
  | user (userId : Uuid)
  | vendor (vendorId : Uuid)
  deriving DecidableEq, Repr

/-- Three columns for a team, a user and a vendor, such as `assigned_*_id` or `chosen_*_id`. -/
structure Assignment where
  teamId : Option Uuid := none
  userId : Option Uuid := none
  vendorId : Option Uuid := none
  deriving DecidableEq, Repr

def Assignment.isSome (a : Assignment) : Bool :=
  a.teamId.isSome || a.userId.isSome || a.vendorId.isSome

/-- `kind === 'team' ? team_id : null`, and the same for the other two. -/
def AssignmentTarget.columns : AssignmentTarget → Assignment
  | .team teamId => { teamId := some teamId }
  | .user userId => { userId := some userId }
  | .vendor vendorId => { vendorId := some vendorId }

def columnsOf : Option AssignmentTarget → Assignment
  | none => {}
  | some target => target.columns

/-- `FulfillmentShape`, or `rule`. -/
inductive Strategy where
  | asset
  | location
  | fixed
  | auto
  | rule
  deriving DecidableEq, Repr

inductive ChosenBy where
  | rule
  | assetOverride
  | assetTypeDefault
  | locationTeam
  | parentLocationTeam
  | spaceGroupTeam
  | domainFallback
  | requestTypeDefault
  | scopeOverride
  | scopeOverrideUnassigned
  | policyRow
  | policyDefault
  | unassigned
  deriving DecidableEq, Repr

structure TraceEntry where
  step : String
  isMatch : Bool
  reason : String
  target : Option AssignmentTarget
  deriving DecidableEq, Repr

/-- What the resolver reads of a case. -/
structure ResolverContext where
  requestTypeId : Option Uuid
  domain : Option String
  priority : Option String
  assetId : Option Uuid
  locationId : Option Uuid
  deriving DecidableEq, Repr

structure RoutingEvaluation where
  target : Option AssignmentTarget
  chosenBy : ChosenBy
  ruleId : Option Uuid := none
  strategy : Strategy
  trace : List TraceEntry := []
  deriving DecidableEq, Repr

/-! ## Rows -/

inductive RoutingStatus where
  | idle
  | pending
  | failed
  deriving DecidableEq, Repr

/-- A row of `tickets`. -/
structure TicketRow where
  ticketTypeId : Option Uuid
  locationId : Option Uuid
  assetId : Option Uuid
  priority : Option String
  assignment : Assignment
  statusCategory : StatusCategory
  routingStatus : RoutingStatus
  routingFailureReason : Option String
  deriving DecidableEq, Repr

/-- `routing_decisions.strategy`. -/
inductive RowStrategy where
  | resolved (strategy : Strategy)
  | manual
  | failed
  deriving DecidableEq, Repr

/-- `routing_decisions.chosen_by`. -/
inductive RowChosenBy where
  | resolver (chosenBy : ChosenBy)
  | manualReassign
  | autoRoutingFailed
  deriving DecidableEq, Repr

/-- `routing_decisions.context`. -/
inductive RowContext where
  | decision (context : ResolverContext) (outboxEventId : Option EventId)
  | reassign (reason : String) (previous : Assignment) (actor : Option Uuid)
  | failure (outboxEventId : EventId) (failureReason : String)
  deriving DecidableEq, Repr

/-- A row of `routing_decisions`. -/
structure DecisionRow where
  strategy : RowStrategy
  chosenBy : RowChosenBy
  ruleId : Option Uuid
  chosen : Assignment
  trace : List TraceEntry
  context : RowContext
  deriving DecidableEq, Repr

def DecisionRow.isSuccessOf (e : EventId) (row : DecisionRow) : Bool :=
  match row.context with
  | .decision _ (some e') => e' == e
  | _ => false

/-- The row is about a person's reassignment, by hand or by a new run of the resolver. -/
def DecisionRow.isReassignment (row : DecisionRow) : Bool :=
  match row.context with
  | .decision _ none | .reassign .. => true
  | _ => false

/-! ## The command -/

/-- `p_payload.decision`. -/
structure Decision where
  strategy : Strategy
  chosenBy : ChosenBy
  ruleId : Option Uuid
  chosen : Assignment
  trace : List TraceEntry
  context : ResolverContext
  outboxEventId : Option EventId
  deriving DecidableEq, Repr

def RoutingEvaluation.decision (evaluation : RoutingEvaluation) (context : ResolverContext)
    (outboxEventId : Option EventId) : Decision where
  strategy := evaluation.strategy
  chosenBy := evaluation.chosenBy
  ruleId := evaluation.ruleId
  chosen := columnsOf evaluation.target
  trace := evaluation.trace
  context := context
  outboxEventId := outboxEventId

/-- `p_payload`. Both callers send the keys of the three assignees together or not at all. -/
structure AssignmentPayload where
  assigned : Option Assignment
  reason : Option String := none
  actorPersonId : Option Uuid := none
  clearRoutingStatus : Bool := false
  decision : Option Decision := none
  deriving DecidableEq, Repr

structure AssignmentResult where
  previous : Assignment
  next : Assignment
  previousStatusCategory : StatusCategory
  newStatusCategory : StatusCategory
  reason : Option String
  noop : Bool
  deriving DecidableEq, Repr

/-- `routing-evaluation:<event id>` or `reassign:case:<ticket id>:<client request id>`. -/
inductive OperationKey where
  | routingEvaluation (event : EventId)
  | reassign (clientRequestId : String)
  deriving DecidableEq, Repr

/-- The assignees and rules of the tenant. -/
structure Directory where
  teams : List Uuid := []
  users : List Uuid := []
  vendors : List Uuid := []
  routingRules : List Uuid := []

structure CaseDb where
  ticket : TicketRow
  decisions : List DecisionRow
  operations : Table (CommandOperation OperationKey AssignmentPayload AssignmentResult)

def CaseDb.reassignments (db : CaseDb) : Nat := db.decisions.countP DecisionRow.isReassignment

/-- `probeCommandOperationSuccess`. -/
def CaseDb.committed (db : CaseDb) (key : OperationKey) : Bool :=
  match db.operations.get? key with
  | some { outcome := .success _, .. } => true
  | _ => false

def unknownIn (known : List Uuid) (id : Option Uuid) : Bool :=
  id.any fun id => !known.contains id

/-- `validate_assignees_in_tenant`. -/
def validateAssigneesInTenant (dir : Directory) (a : Assignment) : Except String Unit :=
  if unknownIn dir.teams a.teamId then
    .error "validate_assignees_in_tenant.assigned_team_id_not_in_tenant"
  else if unknownIn dir.users a.userId then
    .error "validate_assignees_in_tenant.assigned_user_id_not_in_tenant"
  else if unknownIn dir.vendors a.vendorId then
    .error "validate_assignees_in_tenant.assigned_vendor_id_not_in_tenant"
  else .ok ()

/-- The checks on `p_payload.decision` that its type leaves open. -/
def validateDecision (dir : Directory) (decision : Option Decision) : Except String Unit :=
  match decision with
  | none => .ok ()
  | some d =>
      if unknownIn dir.routingRules d.ruleId then
        .error "set_entity_assignment.invalid_decision: rule_id not found in tenant"
      else if unknownIn dir.teams d.chosen.teamId then
        .error "set_entity_assignment.invalid_decision: chosen_team_id not found in tenant"
      else if unknownIn dir.users d.chosen.userId then
        .error "set_entity_assignment.invalid_decision: chosen_user_id not found in tenant"
      else if unknownIn dir.vendors d.chosen.vendorId then
        .error "set_entity_assignment.invalid_decision: chosen_vendor_id not found in tenant"
      else if (d.chosenBy = .unassigned ∧ d.chosen.isSome) ∨
          1 < d.chosen.teamId.toList.length + d.chosen.userId.toList.length +
            d.chosen.vendorId.toList.length then
        .error "set_entity_assignment.invalid_decision: chosen_by/chosen_* provenance mismatch"
      else .ok ()

section

variable (p : AssignmentPayload)

/-- The columns `assigned_*_id` after a call. -/
def AssignmentPayload.next (t : TicketRow) : Assignment :=
  p.assigned.getD t.assignment

/-- `nullif(p_payload->>'reason', '')`. -/
def AssignmentPayload.givenReason : Option String :=
  p.reason.filter (· ≠ "")

/-- The row of `routing_decisions` that a call inserts. -/
def AssignmentPayload.decisionRow (t : TicketRow) : Option DecisionRow :=
  match p.decision, p.givenReason with
  | some d, _ =>
      some
        { strategy := .resolved d.strategy, chosenBy := .resolver d.chosenBy, ruleId := d.ruleId
          chosen := d.chosen, trace := d.trace, context := .decision d.context d.outboxEventId }
  | none, some reason =>
      some
        { strategy := .manual, chosenBy := .manualReassign, ruleId := none, chosen := p.next t
          trace := [], context := .reassign reason t.assignment p.actorPersonId }
  | none, none => none

/-- The case, the decision row and the result of a call that passes the checks. -/
def assignedRow (t : TicketRow) :
    TicketRow × Option DecisionRow × AssignmentResult :=
  let category :=
    if (p.next t).isSome && t.statusCategory == .new then .assigned else t.statusCategory
  let result (noop : Bool) : AssignmentResult :=
    { previous := t.assignment, next := p.next t, previousStatusCategory := t.statusCategory
      newStatusCategory := category, reason := p.givenReason, noop := noop }
  if p.next t = t.assignment ∧ p.givenReason = none ∧ p.decision = none ∧
      p.clearRoutingStatus = false then
    (t, none, result true)
  else
    ({ t with
        assignment := p.next t
        statusCategory := category
        routingStatus := if p.clearRoutingStatus then .idle else t.routingStatus
        routingFailureReason := if p.clearRoutingStatus then none else t.routingFailureReason },
      p.decisionRow t, result false)

end

/-- `set_entity_assignment` between its gate and its record, without watchers. -/
def assignCase (dir : Directory) (p : AssignmentPayload) (t : TicketRow) :
    Except String (TicketRow × Option DecisionRow × AssignmentResult) := do
  validateAssigneesInTenant dir (p.next t)
  validateDecision dir p.decision
  return assignedRow p t

/-- `set_entity_assignment` for a case. -/
def setEntityAssignment (dir : Directory) (key : OperationKey) (p : AssignmentPayload)
    (db : CaseDb) : Except String (CaseDb × AssignmentResult) :=
  match gate db.operations key p with
  | .error e => .error e.message
  | .ok (.cached result) => .ok (db, result)
  | .ok .proceed =>
      match assignCase dir p db.ticket with
      | .error message => .error message
      | .ok (ticket, row, result) =>
          .ok ({ ticket := ticket, decisions := db.decisions ++ row.toList
                 operations := finish (begin db.operations key p) key result }, result)

/-! ## A person's reassignment -/

structure ReassignDto where
  assignedTeamId : Option Uuid := none
  assignedUserId : Option Uuid := none
  assignedVendorId : Option Uuid := none
  reason : String
  actorPersonId : Option Uuid := none
  deriving DecidableEq, Repr

/-- The first of the three assignees that is given. -/
def ReassignDto.target (dto : ReassignDto) : Option AssignmentTarget :=
  match dto.assignedTeamId, dto.assignedUserId, dto.assignedVendorId with
  | some teamId, _, _ => some (.team teamId)
  | none, some userId, _ => some (.user userId)
  | none, none, some vendorId => some (.vendor vendorId)
  | none, none, none => none

/-- What `TicketService.reassign` sends. `resolved` is the answer of the resolver when the person
asks to run it again. -/
def reassignPayload (dto : ReassignDto) (resolved : Option (ResolverContext × RoutingEvaluation)) :
    AssignmentPayload where
  assigned :=
    match resolved with
    | some (_, evaluation) => some (columnsOf evaluation.target)
    | none => some (columnsOf dto.target)
  reason := some dto.reason
  actorPersonId := dto.actorPersonId
  decision := resolved.map fun r => r.2.decision r.1 none

/-- `TicketService.reassign`: the state it leaves, also when it throws. -/
def reassign (dir : Directory) (clientRequestId : String) (dto : ReassignDto)
    (resolved : Option (ResolverContext × RoutingEvaluation)) (db : CaseDb) : CaseDb :=
  if dto.reason.toList.all Char.isWhitespace then db
  else if db.committed (.reassign clientRequestId) then db
  else
    match setEntityAssignment dir (.reassign clientRequestId) (reassignPayload dto resolved) db with
    | .error _ => db
    | .ok (db', _) => db'

/-! ## What the command does -/

/-- A call that is not answered from its record. -/
structure Assigned (dir : Directory) (key : OperationKey) (p : AssignmentPayload)
    (db db' : CaseDb) : Prop where
  fresh : db.operations.get? key = none
  assignees : validateAssigneesInTenant dir (p.next db.ticket) = .ok ()
  decision : validateDecision dir p.decision = .ok ()
  ticketTypeId : db'.ticket.ticketTypeId = db.ticket.ticketTypeId
  locationId : db'.ticket.locationId = db.ticket.locationId
  assetId : db'.ticket.assetId = db.ticket.assetId
  priority : db'.ticket.priority = db.ticket.priority
  assignment : db'.ticket.assignment = p.next db.ticket
  routingStatus : db'.ticket.routingStatus =
    if p.clearRoutingStatus then .idle else db.ticket.routingStatus
  decisions : db'.decisions = db.decisions ++ (p.decisionRow db.ticket).toList
  operations : ∃ result, ∀ k, db'.operations.get? k =
    if k = key then some ⟨key, p, .success result⟩ else db.operations.get? k

theorem decisionRow_eq_none {p : AssignmentPayload} {t : TicketRow} :
    p.decisionRow t = none ↔ p.decision = none ∧ p.givenReason = none := by
  unfold AssignmentPayload.decisionRow
  split <;> simp_all

theorem assignedRow_spec (p : AssignmentPayload) (t : TicketRow) :
    (assignedRow p t).1.ticketTypeId = t.ticketTypeId ∧
      (assignedRow p t).1.locationId = t.locationId ∧ (assignedRow p t).1.assetId = t.assetId ∧
      (assignedRow p t).1.priority = t.priority ∧ (assignedRow p t).1.assignment = p.next t ∧
      (assignedRow p t).1.routingStatus =
        (if p.clearRoutingStatus then .idle else t.routingStatus) ∧
      (assignedRow p t).2.1 = p.decisionRow t := by
  unfold assignedRow
  dsimp only
  split
  · rename_i hnoop
    obtain ⟨hsame, hreason, hnone, hclear⟩ := hnoop
    refine ⟨rfl, rfl, rfl, rfl, hsame.symm, ?_, (decisionRow_eq_none.mpr ⟨hnone, hreason⟩).symm⟩
    rw [hclear]
    rfl
  · exact ⟨rfl, rfl, rfl, rfl, rfl, rfl, rfl⟩

theorem setEntityAssignment_cases {dir : Directory} {key : OperationKey} {p : AssignmentPayload}
    {db db' : CaseDb} {result : AssignmentResult}
    (h : setEntityAssignment dir key p db = .ok (db', result)) :
    (db' = db ∧ db.committed key = true) ∨ Assigned dir key p db db' := by
  unfold setEntityAssignment at h
  split at h
  · cases h
  · rename_i cached hgate
    cases h
    refine .inl ⟨rfl, ?_⟩
    rw [CaseDb.committed, gate_eq_cached.mp hgate]
  · rename_i hgate
    have hfresh := gate_eq_proceed.mp hgate
    split at h
    · cases h
    · rename_i ticket row res hbody
      cases h
      right
      obtain ⟨_, hassignees, hbody⟩ := bind_eq_ok.mp hbody
      obtain ⟨_, hdecision, hbody⟩ := bind_eq_ok.mp hbody
      obtain ⟨htype, hlocation, hasset, hpriority, hnext, hstatus, hrow⟩ :=
        assignedRow_spec p db.ticket
      have hrows : assignedRow p db.ticket = (ticket, row, result) := Except.ok.inj hbody
      rw [hrows] at htype hlocation hasset hpriority hnext hstatus hrow
      refine ⟨hfresh, hassignees, hdecision, htype, hlocation, hasset, hpriority, hnext, hstatus,
        ?_, result, get?_finish_begin hfresh⟩
      rw [← hrow]

theorem isReassignment_decisionRow {dto : ReassignDto}
    {resolved : Option (ResolverContext × RoutingEvaluation)} {t : TicketRow}
    (hreason : dto.reason ≠ "") :
    ∃ row, (reassignPayload dto resolved).decisionRow t = some row ∧ row.isReassignment = true := by
  unfold AssignmentPayload.decisionRow
  cases resolved with
  | some r => exact ⟨_, rfl, rfl⟩
  | none =>
    have hgiven : (reassignPayload dto none).givenReason = some dto.reason := by
      simp [AssignmentPayload.givenReason, reassignPayload, Option.filter, hreason]
    rw [hgiven]
    exact ⟨_, rfl, rfl⟩

theorem reassign_cases (dir : Directory) (clientRequestId : String) (dto : ReassignDto)
    (resolved : Option (ResolverContext × RoutingEvaluation)) (db : CaseDb) :
    reassign dir clientRequestId dto resolved db = db ∨
      Assigned dir (.reassign clientRequestId) (reassignPayload dto resolved) db
          (reassign dir clientRequestId dto resolved db) ∧
        ∃ row, row.isReassignment = true ∧
          (reassign dir clientRequestId dto resolved db).decisions = db.decisions ++ [row] := by
  unfold reassign
  split
  · exact .inl rfl
  rename_i hreason
  split
  · exact .inl rfl
  rename_i hfree
  split
  · exact .inl rfl
  · rename_i db' result hcall
    rcases setEntityAssignment_cases hcall with ⟨rfl, hcommitted⟩ | hassigned
    · exact absurd hcommitted hfree
    · right
      refine ⟨hassigned, ?_⟩
      have hne : dto.reason ≠ "" := by
        intro h
        rw [h] at hreason
        exact hreason rfl
      obtain ⟨row, hrow, his⟩ := isReassignment_decisionRow hne
      refine ⟨row, his, ?_⟩
      rw [hassigned.decisions, hrow]
      rfl

end Prequest.Evaluation
