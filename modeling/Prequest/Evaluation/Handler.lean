import Mathlib.Logic.Function.Basic
import Prequest.Evaluation.Assignment
import Prequest.Lib.Run

/-!
# The handlers of the routing events

A reclassification and a granted approval of a case emit an event that asks for a routing
evaluation. A handler looks up whether the event was committed before, reads the case, asks the
resolver and writes its answer, each in a step of its own. A failure is marked on the case after
the transaction that failed. Deliveries of the same event and of different ones overlap, and
people change the case in between.

* `probe`, `read`, `evaluate`, `write`, `mark`, `record`: the steps of `handle`.
-/

namespace Prequest.Evaluation

open Prequest.Lib
open Prequest.Approval (StatusCategory)

/-! ## The configuration -/

/-- What the handlers read besides the case. `evaluate` is `RoutingService.evaluate`. -/
structure Env where
  directory : Directory
  /-- `request_types.domain`. -/
  domain : Uuid → Option String
  /-- `assets.assigned_space_id`. -/
  assignedSpace : Uuid → Option Uuid
  evaluate : ResolverContext → Except String RoutingEvaluation

def Env.context (env : Env) (t : TicketRow) : ResolverContext where
  requestTypeId := t.ticketTypeId
  domain := t.ticketTypeId.bind env.domain
  priority := t.priority
  assetId := t.assetId
  locationId := t.locationId

def targetMatchesCurrent (target : AssignmentTarget) (a : Assignment) : Bool :=
  match target with
  | .team teamId => a.teamId == some teamId && a.userId == none && a.vendorId == none
  | .user userId => a.userId == some userId && a.teamId == none && a.vendorId == none
  | .vendor vendorId => a.vendorId == some vendorId && a.teamId == none && a.userId == none

def targetDiffers (evaluation : RoutingEvaluation) (t : TicketRow) : Bool :=
  match evaluation.target with
  | none => false
  | some target => !targetMatchesCurrent target t.assignment

/-- `rpcPayload`. -/
def rpcPayload (env : Env) (event : EventId) (t : TicketRow) (evaluation : RoutingEvaluation) :
    AssignmentPayload where
  assigned := if targetDiffers evaluation t then some (columnsOf evaluation.target) else none
  clearRoutingStatus := true
  decision := some (evaluation.decision (env.context t) (some event))

def stripNul (s : String) : String :=
  s.map fun c => if c = Char.ofNat 0 then Char.ofNat 0xFFFD else c

/-- `truncated`. -/
def truncated (reason : String) : String :=
  stripNul <|
    if 500 < reason.length then String.ofList (reason.toList.take 497) ++ "..." else reason

/-! ## The state -/

inductive Delivery where
  | idle
  | probed (event : EventId)
  /-- `reassignments` counts those before the read. The handler does not know it. -/
  | read (event : EventId) (ticket : TicketRow) (reassignments : Nat)
  | evaluated (event : EventId) (ticket : TicketRow) (reassignments : Nat)
      (evaluation : RoutingEvaluation)
  /-- Before the update of `markRoutingFailure`. -/
  | failing (event : EventId) (reason : String)
  /-- Before its decision row. -/
  | recording (event : EventId) (reason : String)
  deriving DecidableEq, Repr

def Delivery.event? : Delivery → Option EventId
  | .idle => none
  | .probed e | .read e _ _ | .evaluated e _ _ _ | .failing e _ | .recording e _ => some e

def Delivery.isRecording (d : Delivery) (e : EventId) : Bool :=
  match d with
  | .recording e' _ => e' == e
  | _ => false

structure RoutingState (ι : Type) where
  db : CaseDb
  approvalOpen : Bool
  /-- The events are numbered from zero. -/
  emitted : Nat
  handled : List EventId
  worker : ι → Delivery
  /-- How often people had reassigned the case when the last event was emitted. -/
  reassignedBefore : Nat

/-- A case as it is created. -/
def RoutingState.start {ι : Type} (ticket : TicketRow) (approvalOpen : Bool) : RoutingState ι where
  db :=
    { ticket := { ticket with routingStatus := .idle, routingFailureReason := none }
      decisions := []
      operations := .empty }
  approvalOpen := approvalOpen
  emitted := 0
  handled := []
  worker := fun _ => .idle
  reassignedBefore := 0

inductive RoutingInput (ι : Type) where
  | openApproval
  | approve
  | reject
  | reclassify (newRequestTypeId : Uuid) (newLocationId : Option Uuid)
  | reassign (clientRequestId : String) (dto : ReassignDto)
      (resolved : Option (ResolverContext × RoutingEvaluation))
  | probe (i : ι) (event : EventId)
  | read (i : ι)
  /-- `thrown` is an exception of the resolver. -/
  | evaluate (i : ι) (thrown : Option String)
  | write (i : ι)
  /-- `updated` is false when the update fails, which is logged only. -/
  | mark (i : ι) (updated : Bool)
  | record (i : ι) (inserted : Bool)
  /-- A crash, or an error that leaves the event to a later delivery. -/
  | fail (i : ι)

section

variable {ι : Type} [DecidableEq ι]

def RoutingState.committed (s : RoutingState ι) (event : EventId) : Bool :=
  s.db.committed (.routingEvaluation event)

def RoutingState.setTicket (s : RoutingState ι) (t : TicketRow) : RoutingState ι :=
  { s with db := { s.db with ticket := t } }

/-- `outbox.emit` of `routing.evaluation_required`. -/
def RoutingState.emit (s : RoutingState ι) : RoutingState ι :=
  { s with emitted := s.emitted + 1, reassignedBefore := s.db.reassignments }

def RoutingState.leave (s : RoutingState ι) (i : ι) (d : Delivery) : RoutingState ι :=
  { s with worker := Function.update s.worker i d }

/-- The handler returns, and the outbox marks the event as processed. -/
def RoutingState.ack (s : RoutingState ι) (i : ι) (event : EventId) : RoutingState ι :=
  { s.leave i .idle with handled := event :: s.handled }

/-! ## The case -/

/-- `grant_ticket_approval` with the decision `approved`. -/
def approve (s : RoutingState ι) : RoutingState ι :=
  if s.approvalOpen then
    ({ s.setTicket { s.db.ticket with statusCategory := .new } with approvalOpen := false }).emit
  else s

/-- `grant_ticket_approval` with the decision `rejected`. -/
def reject (s : RoutingState ι) : RoutingState ι :=
  if s.approvalOpen then
    { s.setTicket { s.db.ticket with statusCategory := .closed } with approvalOpen := false }
  else s

def derivedLocation (env : Env) (newLocationId : Option Uuid) (t : TicketRow) : Option Uuid :=
  (newLocationId.or t.locationId).or (t.assetId.bind env.assignedSpace)

/-- `reclassify_ticket`. -/
def reclassify (env : Env) (newRequestTypeId : Uuid) (newLocationId : Option Uuid)
    (s : RoutingState ι) : RoutingState ι :=
  let t := s.db.ticket
  if t.ticketTypeId = some newRequestTypeId then s
  else if t.statusCategory = .resolved ∨ t.statusCategory = .closed then s
  else if s.approvalOpen then s
  else
    (s.setTicket
      { t with
        ticketTypeId := some newRequestTypeId
        locationId := derivedLocation env newLocationId t
        routingStatus := .pending
        routingFailureReason := none }).emit

/-! ## `RoutingEvaluationHandler.handle` -/

def probe (i : ι) (event : EventId) (s : RoutingState ι) : RoutingState ι :=
  if s.worker i = .idle ∧ event < s.emitted then
    if s.committed event then s.ack i event else s.leave i (.probed event)
  else s

def read (i : ι) (s : RoutingState ι) : RoutingState ι :=
  match s.worker i with
  | .probed event => s.leave i (.read event s.db.ticket s.db.reassignments)
  | _ => s

def evaluate (env : Env) (i : ι) (thrown : Option String) (s : RoutingState ι) :
    RoutingState ι :=
  match s.worker i with
  | .read event t n =>
      match thrown, env.evaluate (env.context t) with
      | some message, _ | none, .error message => s.leave i (.failing event message)
      | none, .ok evaluation => s.leave i (.evaluated event t n evaluation)
  | _ => s

/-- The call of `set_entity_assignment`. All of its errors are registered, and so terminal. -/
def write (env : Env) (i : ι) (s : RoutingState ι) : RoutingState ι :=
  match s.worker i with
  | .evaluated event t _ evaluation =>
      match setEntityAssignment env.directory (.routingEvaluation event)
          (rpcPayload env event t evaluation) s.db with
      | .error message => s.leave i (.failing event message)
      | .ok (db, _) => { s with db := db }.ack i event
  | _ => s

/-- `markRoutingFailure` up to its decision row. -/
def mark (i : ι) (updated : Bool) (s : RoutingState ι) : RoutingState ι :=
  match s.worker i with
  | .failing event reason =>
      let s' := s.leave i (.recording event reason)
      if updated then
        s'.setTicket
          { s.db.ticket with
            routingStatus := .failed, routingFailureReason := some (truncated reason) }
      else s'
  | _ => s

def failureRow (event : EventId) (reason : String) : DecisionRow where
  strategy := .failed
  chosenBy := .autoRoutingFailed
  ruleId := none
  chosen := {}
  trace :=
    [{ step := "evaluation_failed", isMatch := false, reason := truncated reason, target := none }]
  context := .failure event (truncated reason)

/-- A row of the event with the same `chosen_by`. -/
def hasFailureRow (rows : List DecisionRow) (event : EventId) : Bool :=
  rows.any fun row =>
    match row.context with
    | .failure e _ => e == event && row.chosenBy == .autoRoutingFailed
    | _ => false

/-- The decision row of `markRoutingFailure`, unless there is one or the insert fails. -/
def record (i : ι) (inserted : Bool) (s : RoutingState ι) : RoutingState ι :=
  match s.worker i with
  | .recording event reason =>
      let rows :=
        if inserted && !hasFailureRow s.db.decisions event then [failureRow event reason] else []
      { s with db := { s.db with decisions := s.db.decisions ++ rows } }.ack i event
  | _ => s

def step (env : Env) (s : RoutingState ι) : RoutingInput ι → RoutingState ι
  | .openApproval => { s with approvalOpen := true }
  | .approve => approve s
  | .reject => reject s
  | .reclassify newRequestTypeId newLocationId => reclassify env newRequestTypeId newLocationId s
  | .reassign clientRequestId dto resolved =>
      { s with db := reassign env.directory clientRequestId dto resolved s.db }
  | .probe i event => probe i event s
  | .read i => read i s
  | .evaluate i thrown => evaluate env i thrown s
  | .write i => write env i s
  | .mark i updated => mark i updated s
  | .record i inserted => record i inserted s
  | .fail i => s.leave i .idle

/-! ## What one input can do -/

inductive Step (env : Env) (s : RoutingState ι) : RoutingInput ι → RoutingState ι → Prop where
  | same {a : RoutingInput ι} : Step env s a s
  | status {a : RoutingInput ι} (category : StatusCategory) (approvalOpen : Bool) :
      Step env s a
        { s.setTicket { s.db.ticket with statusCategory := category } with
          approvalOpen := approvalOpen }
  | emitted {a : RoutingInput ι} (t : TicketRow) (approvalOpen : Bool)
      (hassignment : t.assignment = s.db.ticket.assignment)
      (hstatus : t.routingStatus = .pending ∨ t.routingStatus = s.db.ticket.routingStatus) :
      Step env s a { s.setTicket t with approvalOpen := approvalOpen }.emit
  | reassigned {a : RoutingInput ι} (clientRequestId : String) (p : AssignmentPayload)
      (db : CaseDb) (row : DecisionRow)
      (hassigned : Assigned env.directory (.reassign clientRequestId) p s.db db)
      (hclear : p.clearRoutingStatus = false) (hrow : row.isReassignment = true)
      (hdecisions : db.decisions = s.db.decisions ++ [row]) :
      Step env s a { s with db := db }
  | moved {a : RoutingInput ι} (i : ι) (d : Delivery)
      (hevent : ∀ e, d.event? = some e → e < s.emitted ∨ (s.worker i).event? = some e)
      (hevaluated : ∀ e t n evaluation, d = .evaluated e t n evaluation →
        env.evaluate (env.context t) = .ok evaluation)
      (hrecording : ∀ e, d.isRecording e = false) :
      Step env s a (s.leave i d)
  | acked {a : RoutingInput ι} (i : ι) (event : EventId)
      (hcommitted : s.committed event = true) :
      Step env s a (s.ack i event)
  | wrote (i : ι) (event : EventId) (t : TicketRow) (n : Nat) (evaluation : RoutingEvaluation)
      (db : CaseDb) (hworker : s.worker i = .evaluated event t n evaluation)
      (hassigned : Assigned env.directory (.routingEvaluation event)
        (rpcPayload env event t evaluation) s.db db) :
      Step env s (.write i) ({ s with db := db }.ack i event)
  | marked (i : ι) (event : EventId) (reason : String)
      (hworker : s.worker i = .failing event reason) :
      Step env s (.mark i true)
        ((s.leave i (.recording event reason)).setTicket
          { s.db.ticket with
            routingStatus := .failed, routingFailureReason := some (truncated reason) })
  | markLost (i : ι) (event : EventId) (reason : String)
      (hworker : s.worker i = .failing event reason) :
      Step env s (.mark i false) (s.leave i (.recording event reason))
  | recorded {a : RoutingInput ι} (i : ι) (event : EventId) (reason : String)
      (rows : List DecisionRow) (hworker : s.worker i = .recording event reason)
      (hrows : rows = [failureRow event reason] ∨ rows = []) :
      Step env s a
        ({ s with db := { s.db with decisions := s.db.decisions ++ rows } }.ack i event)

variable {env : Env} {s : RoutingState ι}

theorem Step.idled {a : RoutingInput ι} (i : ι) : Step env s a (s.leave i .idle) :=
  .moved i .idle (fun _ h => nomatch h) (fun _ _ _ _ h => nomatch h) fun _ => rfl

theorem Step.fails {a : RoutingInput ι} (i : ι) {event : EventId} (message : String)
    (h : (s.worker i).event? = some event) : Step env s a (s.leave i (.failing event message)) := by
  refine .moved i _ ?_ (fun _ _ _ _ h => nomatch h) fun _ => rfl
  intro e he
  right
  rw [h]
  exact he

theorem write_cases (env : Env) {i : ι} {event : EventId} {t : TicketRow} {n : Nat}
    {evaluation : RoutingEvaluation} (hworker : s.worker i = .evaluated event t n evaluation) :
    (∃ message, write env i s = s.leave i (.failing event message)) ∨
      (s.committed event = true ∧ write env i s = s.ack i event) ∨
        ∃ db, Assigned env.directory (.routingEvaluation event) (rpcPayload env event t evaluation)
          s.db db ∧ write env i s = { s with db := db }.ack i event := by
  unfold write
  rw [hworker]
  dsimp only
  split
  · rename_i message _
    exact .inl ⟨message, rfl⟩
  · rename_i db result hcall
    rcases setEntityAssignment_cases hcall with ⟨rfl, hcommitted⟩ | hassigned
    · exact .inr (.inl ⟨hcommitted, rfl⟩)
    · exact .inr (.inr ⟨db, hassigned, rfl⟩)

theorem step_cases (env : Env) (s : RoutingState ι) (a : RoutingInput ι) :
    Step env s a (step env s a) := by
  cases a with
  | openApproval => exact .status s.db.ticket.statusCategory true
  | approve =>
    show Step env s _ (approve s)
    unfold approve
    split
    · exact .emitted _ false rfl (.inr rfl)
    · exact .same
  | reject =>
    show Step env s _ (reject s)
    unfold reject
    split
    · exact .status .closed false
    · exact .same
  | reclassify newRequestTypeId newLocationId =>
    show Step env s _ (reclassify env newRequestTypeId newLocationId s)
    unfold reclassify
    dsimp only
    split
    · exact .same
    split
    · exact .same
    split
    · exact .same
    · exact .emitted _ s.approvalOpen rfl (.inl rfl)
  | reassign clientRequestId dto resolved =>
    show Step env s _ { s with db := reassign env.directory clientRequestId dto resolved s.db }
    rcases reassign_cases env.directory clientRequestId dto resolved s.db with
      hsame | ⟨hassigned, row, hrow, hdecisions⟩
    · rw [hsame]
      exact .same
    · exact .reassigned clientRequestId _ _ row hassigned rfl hrow hdecisions
  | probe i event =>
    show Step env s _ (probe i event s)
    unfold probe
    split
    · rename_i h
      split
      · rename_i hcommitted
        exact .acked i event hcommitted
      · refine .moved i _ ?_ (fun _ _ _ _ h => nomatch h) fun _ => rfl
        intro e he
        cases he
        exact .inl h.2
    · exact .same
  | read i =>
    show Step env s _ (read i s)
    unfold read
    split
    · rename_i event hworker
      refine .moved i _ ?_ (fun _ _ _ _ h => nomatch h) fun _ => rfl
      intro e he
      cases he
      exact .inr (by rw [hworker]; rfl)
    · exact .same
  | evaluate i thrown =>
    show Step env s _ (evaluate env i thrown s)
    unfold evaluate
    split
    · rename_i event t n hworker
      have hevent : (s.worker i).event? = some event := by rw [hworker]; rfl
      split
      · exact .fails i _ hevent
      · exact .fails i _ hevent
      · rename_i evaluation hok
        refine .moved i _ ?_ ?_ fun _ => rfl
        · intro e he
          cases he
          exact .inr hevent
        · intro e t' n' evaluation' h
          cases h
          exact hok
    · exact .same
  | write i =>
    show Step env s _ (write env i s)
    cases hworker : s.worker i with
    | evaluated event t n evaluation =>
      have hevent : (s.worker i).event? = some event := by rw [hworker]; rfl
      rcases write_cases env hworker with
        ⟨message, hwrite⟩ | ⟨hcommitted, hwrite⟩ | ⟨db, hassigned, hwrite⟩
      · rw [hwrite]
        exact .fails i message hevent
      · rw [hwrite]
        exact .acked i event hcommitted
      · rw [hwrite]
        exact .wrote i event t n evaluation db hworker hassigned
    | idle | probed | read | failing | recording =>
      unfold write
      rw [hworker]
      exact .same
  | mark i updated =>
    show Step env s _ (mark i updated s)
    unfold mark
    split
    · rename_i event reason hworker
      cases updated with
      | true => exact .marked i event reason hworker
      | false => exact .markLost i event reason hworker
    · exact .same
  | record i inserted =>
    show Step env s _ (record i inserted s)
    unfold record
    split
    · rename_i event reason hworker
      refine .recorded i event reason _ hworker ?_
      split
      · exact .inl rfl
      · exact .inr rfl
    · exact .same
  | fail i => exact .idled i

end

end Prequest.Evaluation
