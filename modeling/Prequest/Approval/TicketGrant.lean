import Prequest.Approval.Row
import Prequest.Command.Operation
import Prequest.Outbox.Emit

/-!
# Granting a ticket approval

`grant_ticket_approval` answers one approval row of a ticket and, when the
answer decides the ticket, moves the ticket on and emits the events that start
its automation. There are two overloads; this is the one that the API calls, with
the decision and the comments as arguments. It is the function as one transaction:
what it computes when nothing else runs. `TicketGrantTx` takes the same
statements apart.

* The statements: `TicketDb.respond`, `TicketDb.setTicket` and their siblings,
  each one the write of a single SQL command.
-/

namespace Prequest.Approval

open Prequest.Lib Prequest.Command Prequest.Outbox

/-! ## Rows -/

/-- The values of `tickets.status_category`. -/
inductive StatusCategory where
  | new
  | assigned
  | inProgress
  | waiting
  | pendingApproval
  | resolved
  | closed
  deriving DecidableEq, Repr

/-- A row of `tickets`, with the columns the function reads or writes. -/
structure TicketRow where
  id : Nat
  status : String
  statusCategory : StatusCategory
  ticketTypeId : Option Nat
  workflowId : Option Nat
  slaId : Option Nat
  locationId : Option Nat
  assetId : Option Nat
  priority : String
  closedAt : Option Nat
  updatedAt : Nat
  deriving DecidableEq, Repr

instance : Keyed TicketRow Nat where
  key := TicketRow.id

/-- A row of `users`: who acts for which login. -/
structure UserRow where
  id : Nat
  personId : Option Nat
  authUid : Nat
  deriving DecidableEq, Repr

/-- A row of `ticket_activities` as the function writes it. -/
structure TicketActivity where
  ticketId : Nat
  authorPersonId : Option Nat
  visibility : String
  event : String
  approvalId : Nat
  comments : Option String
  deriving DecidableEq, Repr

/-- A row of `domain_events`. `remaining` is there when the decision is partial. -/
structure DomainEvent where
  eventType : String
  entityId : Nat
  approvalId : Nat
  idempotencyKey : String
  remaining : Option Nat
  actorUserId : Option Nat
  deriving DecidableEq, Repr

inductive TicketEvent where
  | slaTimerRecomputeRequired (ticketId slaPolicyId startedAt : Nat)
  | routingEvaluationRequired (ticketId : Nat) (requestTypeId locationId assetId : Option Nat)
      (priority : String)
  | workflowStartRequired (ticketId workflowDefinitionId : Nat)
  deriving DecidableEq, Repr

/-- `<event type>:<ticket id>:<command key>`, the key of an emitted event. -/
structure TicketEventKey where
  eventType : String
  ticketId : Nat
  commandKey : String
  deriving DecidableEq, Repr

/-- The JSON object that the hash of a call is taken of. -/
structure GrantPayload where
  approvalId : Nat
  decision : Option String
  comments : Option String
  deriving DecidableEq, Repr

/-- The JSON result of a call. -/
inductive GrantResult where
  | nonTicketApproved (approvalId : Nat) (targetEntityType : TargetEntityType)
  | alreadyResponded (approvalId ticketId : Nat) (priorStatus : ApprovalStatus)
  | partialApproved (approvalId ticketId remaining : Nat)
  | resolved (approvalId ticketId : Nat) (finalDecision : Decision) (ticketStatus : String)
      (ticketStatusCategory : StatusCategory)
      (slaStarted workflowStarted routingEvaluationEmitted : Bool)
  deriving DecidableEq, Repr

/-- The arguments of a call, with the time of its transaction. -/
structure GrantCall where
  approvalId : Nat
  actorUserId : Option Nat
  decision : Option String
  comments : Option String
  idempotencyKey : String
  now : Nat
  deriving DecidableEq, Repr

def GrantCall.payload (call : GrantCall) : GrantPayload where
  approvalId := call.approvalId
  decision := call.decision
  comments := call.comments

/-- The tables that `grant_ticket_approval` reads or writes. -/
structure TicketDb where
  approvals : Table ApprovalRow
  tickets : Table TicketRow
  users : List UserRow
  commandOperations : Table (CommandOperation String GrantPayload GrantResult)
  ticketActivities : List TicketActivity
  domainEvents : List DomainEvent
  outbox : Table (Event TicketEventKey TicketEvent)
  deriving DecidableEq

/-- The exceptions of the function. -/
inductive GrantError where
  | invalidResponse
  | idempotencyKeyRequired
  | gate (e : GateError)
  | approvalNotFound (id : Nat)
  | casLost (id : Nat)
  | ticketNotFound (id : Nat)
  | emit (e : EmitError)
  deriving DecidableEq, Repr

/-! ## Arguments -/

/-- The decision, refused unless it is one of the two. -/
def GrantPayload.parseDecision (payload : GrantPayload) : Option Decision :=
  if payload.decision = some "approved" then some .approved
  else if payload.decision = some "rejected" then some .rejected
  else none

def TicketDb.actor (db : TicketDb) (call : GrantCall) : Option UserRow :=
  call.actorUserId.bind fun uid => db.users.find? fun u => u.authUid == uid

/-! ## Statements -/

/-- The condition under which an approval row belongs to the group of `a`. -/
def ApprovalRow.siblingOf (a r : ApprovalRow) : Bool :=
  r.targetEntityType == .ticket && r.targetEntityId == a.targetEntityId &&
    ((a.approvalChainId.isSome && r.approvalChainId == a.approvalChainId) ||
      (a.parallelGroup.isSome && r.parallelGroup == a.parallelGroup))

/-- The number of rows in the group of `a` that still wait for an answer. -/
def nonTerminalCount (approvals : Table ApprovalRow) (a : ApprovalRow) : Nat :=
  approvals.rows.countP fun r => a.siblingOf r && r.nonTerminal

def remainingCount (approvals : Table ApprovalRow) (a : ApprovalRow) (decision : Decision) : Nat :=
  if decision = .approved ∧ (a.approvalChainId.isSome ∨ a.parallelGroup.isSome) then
    nonTerminalCount approvals a
  else 0

section

variable (db : TicketDb) (call : GrantCall)

/-- The `in_progress` marker of the call. -/
def TicketDb.begin : TicketDb :=
  { db with commandOperations := Command.begin db.commandOperations call.idempotencyKey call.payload }

def TicketDb.finish (result : GrantResult) : TicketDb :=
  { db with commandOperations := Command.finish db.commandOperations call.idempotencyKey result }

/-- Whether the compare-and-set finds its row still pending. -/
def TicketDb.canRespond : Bool :=
  db.approvals.rows.any fun r => r.id == call.approvalId && r.status == .pending

/-- The compare-and-set on the answered row. -/
def TicketDb.respond (decision : Decision) : TicketDb :=
  { db with
    approvals := db.approvals.update (fun r => r.id == call.approvalId && r.status == .pending)
      ⟨fun r => r.respond decision call.now call.comments, fun _ => rfl⟩ }

end

def Decision.eventType : Decision → String
  | .approved => "approval_approved"
  | .rejected => "approval_rejected"

section

variable (db : TicketDb) (call : GrantCall) (decision : Decision) (actor : Option UserRow)
  (ticketId : Nat)

def TicketDb.recordEvent (remaining : Option Nat) : TicketDb :=
  { db with
    domainEvents := db.domainEvents ++
      [{ eventType := decision.eventType
         entityId := ticketId
         approvalId := call.approvalId
         idempotencyKey := call.idempotencyKey
         remaining := remaining
         actorUserId := actor.map UserRow.id }] }

/-- The ticket after a decision. One that has moved on since it was put up for approval stays as
it is. -/
def TicketRow.decide (t : TicketRow) (decision : Decision) (now : Nat) : TicketRow :=
  if t.statusCategory = .pendingApproval then
    match decision with
    | .rejected =>
        { t with
          status := "rejected"
          statusCategory := .closed
          closedAt := some (t.closedAt.getD now)
          updatedAt := now }
    | .approved => { t with status := "new", statusCategory := .new, updatedAt := now }
  else t

@[simp] theorem decide_id (t : TicketRow) (now : Nat) : (t.decide decision now).id = t.id := by
  unfold TicketRow.decide
  split
  · cases decision <;> rfl
  · rfl

def TicketDb.setTicket : TicketDb :=
  { db with
    tickets := db.tickets.update (fun t => t.id == ticketId)
      ⟨fun t => t.decide decision call.now, fun t => decide_id decision t call.now⟩ }

def TicketDb.recordActivity : TicketDb :=
  { db with
    ticketActivities := db.ticketActivities ++
      [{ ticketId := ticketId
         authorPersonId := actor.bind UserRow.personId
         visibility := "system"
         event := decision.eventType
         approvalId := call.approvalId
         comments := call.comments }] }

def TicketDb.recordDecision : TicketDb :=
  (db.recordActivity call decision actor ticketId).recordEvent call decision actor ticketId none

end

def postApprovalEvents (call : GrantCall) (t : TicketRow) : List (Event TicketEventKey TicketEvent) :=
  (t.slaId.toList.map fun sla =>
    { idempotencyKey := ⟨"sla.timer_recompute_required", t.id, call.idempotencyKey⟩
      payload := .slaTimerRecomputeRequired t.id sla call.now }) ++
  [{ idempotencyKey := ⟨"routing.evaluation_required", t.id, call.idempotencyKey⟩
     payload := .routingEvaluationRequired t.id t.ticketTypeId t.locationId t.assetId t.priority }] ++
  (t.workflowId.toList.map fun workflow =>
    { idempotencyKey := ⟨"workflow.start_required", t.id, call.idempotencyKey⟩
      payload := .workflowStartRequired t.id workflow })

/-- Whether the automation starts: the ticket is approved, and new after the decision. -/
def startsAutomation (call : GrantCall) (decision : Decision) (t : TicketRow) : Bool :=
  decision == .approved && (t.decide decision call.now).statusCategory == .new

def eventsOf (call : GrantCall) (decision : Decision) (t : TicketRow) :
    List (Event TicketEventKey TicketEvent) :=
  if startsAutomation call decision t then postApprovalEvents call t else []

/-! Each statement leaves the tables it does not write as they were. -/

section Frame

variable (db : TicketDb) (call : GrantCall) (decision : Decision) (actor : Option UserRow)
  (result : GrantResult) (ticketId : Nat) (remaining : Option Nat)

@[simp] theorem begin_approvals : (db.begin call).approvals = db.approvals := rfl
@[simp] theorem begin_tickets : (db.begin call).tickets = db.tickets := rfl
@[simp] theorem begin_outbox : (db.begin call).outbox = db.outbox := rfl

@[simp] theorem finish_approvals : (db.finish call result).approvals = db.approvals := rfl

@[simp] theorem respond_tickets : (db.respond call decision).tickets = db.tickets := rfl
@[simp] theorem respond_outbox : (db.respond call decision).outbox = db.outbox := rfl

@[simp] theorem recordEvent_approvals :
    (db.recordEvent call decision actor ticketId remaining).approvals = db.approvals := rfl

@[simp] theorem setTicket_outbox :
    (db.setTicket call decision ticketId).outbox = db.outbox := rfl

@[simp] theorem recordDecision_outbox :
    (db.recordDecision call decision actor ticketId).outbox = db.outbox := rfl

end Frame

/-! ## Results -/

def decidedResult (call : GrantCall) (decision : Decision) (t : TicketRow) : GrantResult :=
  .resolved call.approvalId t.id decision (t.decide decision call.now).status
    (t.decide decision call.now).statusCategory
    (startsAutomation call decision t && t.slaId.isSome)
    (startsAutomation call decision t && t.workflowId.isSome) (startsAutomation call decision t)

/-! ## The function -/

section

variable (db : TicketDb) (call : GrantCall)

/-- The part after the sibling count: lock the ticket, move it, emit and record. -/
def decideTicket (decision : Decision)
    (actor : Option UserRow) (ticketId : Nat) : Except GrantError (TicketDb × GrantResult) :=
  match db.tickets.get? ticketId with
  | none => .error (.ticketNotFound ticketId)
  | some t =>
      let db := (db.setTicket call decision ticketId).recordDecision call decision actor ticketId
      match emitAll db.outbox (eventsOf call decision t) with
      | .error e => .error (.emit e)
      | .ok outbox =>
          let result := decidedResult call decision t
          .ok (({ db with outbox := outbox } : TicketDb).finish call result, result)

/-- The part after the gate: lock the row, answer it, count its siblings. -/
def respondToApproval (decision : Decision) :
    Except GrantError (TicketDb × GrantResult) :=
  let actor := db.actor call
  match db.approvals.get? call.approvalId with
  | none => .error (.approvalNotFound call.approvalId)
  | some a =>
      if a.targetEntityType ≠ .ticket then
        let result := GrantResult.nonTicketApproved call.approvalId a.targetEntityType
        .ok (db.finish call result, result)
      else if a.status ≠ .pending then
        let result := GrantResult.alreadyResponded call.approvalId a.targetEntityId a.status
        .ok (db.finish call result, result)
      else if ¬ db.canRespond call then
        .error (.casLost call.approvalId)
      else
        let db := db.respond call decision
        let remaining := remainingCount db.approvals a decision
        if 0 < remaining then
          let result := GrantResult.partialApproved call.approvalId a.targetEntityId remaining
          .ok ((db.recordEvent call decision actor a.targetEntityId (some remaining)).finish call
            result, result)
        else
          decideTicket db call decision actor a.targetEntityId

/-- `grant_ticket_approval`, run as one transaction. -/
def grantTicketApproval :
    Except GrantError (TicketDb × GrantResult) :=
  match call.payload.parseDecision with
  | none => .error .invalidResponse
  | some decision =>
      if call.idempotencyKey = "" then .error .idempotencyKeyRequired
      else match gate db.commandOperations call.idempotencyKey call.payload with
        | .error e => .error (.gate e)
        | .ok (.cached result) => .ok (db, result)
        | .ok .proceed => respondToApproval (db.begin call) call decision

end

/-! ## What a call can do -/

/-- The call passes the argument checks and the gate with this decision. -/
structure Admitted (db : TicketDb) (call : GrantCall) (decision : Decision) : Prop where
  hkey : call.idempotencyKey ≠ ""
  hparse : call.payload.parseDecision = some decision
  hgate : db.commandOperations.get? call.idempotencyKey = none

/-- The call answers the pending row `a` of a ticket. -/
structure Answers (db : TicketDb) (call : GrantCall) (decision : Decision) (a : ApprovalRow) :
    Prop extends Admitted db call decision where
  hrow : db.approvals.get? call.approvalId = some a
  htarget : a.targetEntityType = .ticket
  hpending : a.status = .pending

/-- The siblings the call still counts once it has written its own answer. -/
def TicketDb.remaining (db : TicketDb) (call : GrantCall) (decision : Decision)
    (a : ApprovalRow) : Nat :=
  remainingCount (db.respond call decision).approvals a decision

/-- The ways a call ends without raising, with the state and the result it leaves. -/
inductive GrantStep (db : TicketDb) (call : GrantCall) : TicketDb → GrantResult → Prop where
  /-- A repeated call returns the recorded result. -/
  | cached {result : GrantResult}
      (hgate : gate db.commandOperations call.idempotencyKey call.payload = .ok (.cached result)) :
      GrantStep db call db result
  /-- The row is of another entity, or was answered before. -/
  | refused {decision : Decision} {result : GrantResult} (hadmitted : Admitted db call decision) :
      GrantStep db call ((db.begin call).finish call result) result
  /-- The answer is written and other rows of the group still wait. -/
  | partialApproved {decision : Decision} {a : ApprovalRow} {result : GrantResult}
      (hanswers : Answers db call decision a) (hwait : 0 < db.remaining call decision a) :
      GrantStep db call
        ((((db.begin call).respond call decision).recordEvent call decision
          (db.actor call) a.targetEntityId (some (db.remaining call decision a))).finish call result)
        result
  /-- The answer is written and decides the ticket. -/
  | decided {decision : Decision} {a : ApprovalRow} {t : TicketRow}
      {outbox : Table (Event TicketEventKey TicketEvent)}
      (hanswers : Answers db call decision a) (hnone : db.remaining call decision a = 0)
      (hticket : db.tickets.get? a.targetEntityId = some t)
      (hemit : emitAll db.outbox (eventsOf call decision t) = .ok outbox) :
      GrantStep db call
        ({ ((((db.begin call).respond call decision).setTicket call decision
              a.targetEntityId).recordDecision call decision (db.actor call) a.targetEntityId) with
            outbox := outbox : TicketDb }.finish call (decidedResult call decision t))
        (decidedResult call decision t)

variable {db : TicketDb} {call : GrantCall} {result : GrantResult}

theorem canRespond_of_pending {a : ApprovalRow}
    (hrow : db.approvals.get? call.approvalId = some a) (hpending : a.status = .pending) :
    db.canRespond call = true := by
  obtain ⟨hmem, hid⟩ := Table.get?_eq_some.mp hrow
  have hid' : a.id = call.approvalId := hid
  refine List.any_eq_true.mpr ⟨a, hmem, ?_⟩
  simp [hid', hpending]

theorem respondToApproval_cases {db' : TicketDb} {decision : Decision}
    (hadmitted : Admitted db call decision)
    (h : respondToApproval (db.begin call) call decision = .ok (db', result)) :
    GrantStep db call db' result := by
  unfold respondToApproval at h
  cases hrow : db.approvals.get? call.approvalId with
  | none =>
    simp only [begin_approvals, hrow, reduceCtorEq] at h
  | some a =>
    simp only [begin_approvals, hrow] at h
    by_cases htarget : a.targetEntityType = .ticket
    · rw [if_neg (not_not.mpr htarget)] at h
      by_cases hpending : a.status = .pending
      · have hcan : (db.begin call).canRespond call = true := canRespond_of_pending hrow hpending
        have hanswers : Answers db call decision a := ⟨hadmitted, hrow, htarget, hpending⟩
        rw [if_neg (not_not.mpr hpending), if_neg (not_not.mpr hcan)] at h
        change (if 0 < db.remaining call decision a then _ else _) = _ at h
        by_cases hwait : 0 < db.remaining call decision a
        · rw [if_pos hwait] at h
          cases h
          exact .partialApproved hanswers hwait
        · rw [if_neg hwait] at h
          unfold decideTicket at h
          cases hticket : db.tickets.get? a.targetEntityId with
          | none =>
            simp only [respond_tickets, begin_tickets, hticket, reduceCtorEq] at h
          | some t =>
            simp only [respond_tickets, begin_tickets, hticket, recordDecision_outbox,
              setTicket_outbox, respond_outbox, begin_outbox] at h
            cases hemit : emitAll db.outbox (eventsOf call decision t) with
            | error e =>
              simp only [hemit, reduceCtorEq] at h
            | ok outbox =>
              simp only [hemit] at h
              cases h
              exact .decided hanswers (Nat.eq_zero_of_not_pos hwait) hticket hemit
      · rw [if_pos hpending] at h
        cases h
        exact .refused hadmitted
    · rw [if_pos htarget] at h
      cases h
      exact .refused hadmitted

theorem grantTicketApproval_cases {db' : TicketDb}
    (h : grantTicketApproval db call = .ok (db', result)) : GrantStep db call db' result := by
  unfold grantTicketApproval at h
  cases hparse : call.payload.parseDecision with
  | none =>
    simp only [hparse, reduceCtorEq] at h
  | some decision =>
    simp only [hparse] at h
    split at h
    · cases h
    rename_i hkey
    cases hgate : gate db.commandOperations call.idempotencyKey call.payload with
    | error e =>
      simp only [hgate, reduceCtorEq] at h
    | ok answer =>
      cases answer with
      | cached r =>
        simp only [hgate] at h
        cases h
        exact .cached hgate
      | proceed =>
        simp only [hgate] at h
        exact respondToApproval_cases ⟨hkey, hparse, gate_eq_proceed.mp hgate⟩ h

end Prequest.Approval
