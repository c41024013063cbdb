import Prequest.Cases.TimerStart
import Prequest.Lib.Run
import Prequest.Outbox.Emit

/-!
# Timers under status transitions

`transition_entity_status` writes the status of a case or of a work order and,
where the timers have to react, marks them and emits
`sla.timer_recompute_required`. The handler of that event type is
`SlaTimerHandler`, which starts timers and knows nothing of pauses.

* `follows_iff_quiet`: the timers follow the status along a run exactly when its calls are quiet.
-/

namespace Prequest.Cases

open Prequest.Lib Prequest.Sla Prequest.Outbox Prequest.Command

/-! ## The command -/

/-- The arguments of `transition_entity_status`, and the clock of its transaction. -/
structure TransitionCall where
  entityId : String
  kind : EntityKind
  idempotencyKey : String
  payload : StatusPayload
  now : Int
  deriving DecidableEq, Repr

/-- `v_result`, and the payload of the event about the status without the actor. -/
structure TransitionResult where
  entityId : String
  entityKind : EntityKind
  previousStatus : String
  newStatus : String
  previousStatusCategory : String
  newStatusCategory : String
  previousWaitingReason : Option String
  newWaitingReason : Option String
  noop : Bool
  deriving DecidableEq, Repr

inductive StatusEventKey where
  /-- `sla.timer_recompute_required:<entity>:<key>`. -/
  | recompute (entityId idempotencyKey : String)
  /-- `<key>:status_event`. -/
  | changed (idempotencyKey : String)
  deriving DecidableEq, Repr

inductive StatusEventPayload where
  | recompute (payload : TimerPayload)
  | changed (result : TransitionResult)
  deriving DecidableEq, Repr

/-- The database of one tenant, and the events that no handler has ended yet. -/
structure StatusDb where
  tables : CaseTables
  ops : Table (CommandOperation String StatusPayload TransitionResult) := Table.empty
  outbox : Table (Event StatusEventKey StatusEventPayload) := Table.empty
  pending : List TimerEvent := []

def CaseTables.policyOf (db : CaseTables) (e : Entity) : Option SlaPolicy :=
  e.slaId.bind db.policy?

/-- `v_pause_reasons`. -/
def CaseTables.pauseReasonsOf (db : CaseTables) (e : Entity) : Option (List String) :=
  (db.policyOf e).bind SlaPolicy.pauseOnWaitingReasons

def setColumns (f : StatusColumns → StatusColumns) : Table.Assignment Entity where
  apply e := { e with columns := f e.columns }
  key_apply _ := rfl

/-- The parent of a work order is resolved or closed. -/
def CaseTables.parentSettled (db : CaseTables) (e : Entity) : Bool :=
  match e.parentTicketId.bind db.ticket? with
  | none => false
  | some parent => isTerminal parent.columns.statusCategory

/-- `enforce_work_order_parent_open_invariant` raises on an update that keeps the parent. -/
def CaseTables.reopensUnderSettled (db : CaseTables) (e : Entity) (next : StatusColumns) : Bool :=
  e.kind == .workOrder && isTerminal e.columns.statusCategory &&
    !isTerminal next.statusCategory && db.parentSettled e

def rolledParent (e : Entity) (next : StatusColumns) : Option String :=
  if e.kind = .workOrder ∧ next.statusCategory ≠ e.columns.statusCategory then e.parentTicketId
  else none

def CaseTables.writeRow (db : CaseTables) (e : Entity) (next : StatusColumns) : CaseTables :=
  { db with entities := db.entities.update (fun x => x.id == e.id) (setColumns fun _ => next) }

/-- The update of the row with the rollup on its parent. The close guard on `tickets` passes: the
command has counted the open children of a case, and the rollup resolves a case only when none of
its children is open. -/
def CaseTables.writeStatus (db : CaseTables) (now : Int) (e : Entity) (next : StatusColumns) :
    CaseTables :=
  let written := db.writeRow e next
  match rolledParent e next with
  | none => written
  | some parent =>
      written.setTicket parent (setColumns (rollup now (written.childCategories parent)))

/-- `update public.sla_timers set recompute_pending = true`. -/
def markPending (entityId : String) (t : SlaTimer) : SlaTimer :=
  if t.ticketId == entityId && t.active then { t with recomputePending := true } else t

section

variable (c : TransitionCall) (prev next : StatusColumns)

/-- The result for a row that goes from `prev` to `next`. -/
def transitionResult (noop : Bool) :
    TransitionResult where
  entityId := c.entityId
  entityKind := c.kind
  previousStatus := prev.status
  newStatus := next.status
  previousStatusCategory := prev.statusCategory
  newStatusCategory := next.statusCategory
  previousWaitingReason := prev.waitingReason
  newWaitingReason := next.waitingReason
  noop := noop

/-- The payload of `sla.timer_recompute_required`, as the command builds it. -/
def recomputePayload (action : TimerAction) :
    TimerPayload where
  entityId := some c.entityId
  entityKind := some c.kind
  action := some action
  waitingReason := next.waitingReason
  previousStatus := some prev.status
  newStatus := some next.status
  newStatusCategory := some next.statusCategory

/-- The events of a transition, in the order of their emits. -/
def statusEvents (action : Option TimerAction) :
    List (Event StatusEventKey StatusEventPayload) :=
  (action.map fun a =>
      { idempotencyKey := .recompute c.entityId c.idempotencyKey
        payload := .recompute (recomputePayload c prev next a) }).toList ++
    [{ idempotencyKey := .changed c.idempotencyKey
       payload := .changed (transitionResult c prev next false) }]

end

/-- The event that the worker gets to see, unless the outbox had it before. -/
def newPending (tenantId : String) (s : StatusDb) (c : TransitionCall) (prev next : StatusColumns)
    (action : Option TimerAction) : List TimerEvent :=
  if (s.outbox.get? (.recompute c.entityId c.idempotencyKey)).isSome then []
  else
    (action.map fun a =>
      { tenantId := tenantId, payload := recomputePayload c prev next a : TimerEvent }).toList

def recordTransition (s : StatusDb) (c : TransitionCall) (result : TransitionResult) :
    Table (CommandOperation String StatusPayload TransitionResult) :=
  finish (begin s.ops c.idempotencyKey c.payload) c.idempotencyKey result

/-- The body of the command for a row that it has found and locked. -/
def transitionRow (tenantId : String) (s : StatusDb) (c : TransitionCall) (e : Entity) :
    Except String StatusDb :=
  match transition c.kind (s.tables.openChildren e.id) c.now e.columns c.payload with
  | .error message => .error message
  | .ok none =>
      .ok { s with ops := recordTransition s c (transitionResult c e.columns e.columns true) }
  | .ok (some next) =>
      if s.tables.reopensUnderSettled e next then .error "work_order.parent_terminal"
      else
        let tables := s.tables.writeStatus c.now e next
        let action := timerAction (s.tables.pauseReasonsOf e) e.columns next
        match emitAll s.outbox (statusEvents c e.columns next action) with
        | .error .keyCollision => .error "outbox.emit: idempotency key collision"
        | .ok outbox =>
            .ok
              { tables :=
                  { tables with
                    timers :=
                      if action.isSome then tables.timers.map (markPending e.id)
                      else tables.timers }
                ops := recordTransition s c (transitionResult c e.columns next false)
                outbox := outbox
                pending := s.pending ++ newPending tenantId s c e.columns next action }

/-- `transition_entity_status`. -/
def transitionEntityStatus (tenantId : String) (s : StatusDb) (c : TransitionCall) :
    Except String StatusDb :=
  if c.idempotencyKey = "" then .error "transition_entity_status: p_idempotency_key required"
  else match gate s.ops c.idempotencyKey c.payload with
    | .error .payloadMismatch => .error "command_operations.payload_mismatch"
    | .error .unexpectedState => .error "command_operations.unexpected_state"
    | .ok (.cached _) => .ok s
    | .ok .proceed =>
        match s.tables.entity? c.kind c.entityId with
        | none => .error "transition_entity_status.not_found"
        | some e => transitionRow tenantId s c e

/-! ## Runs -/

/-- A call of the command, and the time at which its events are handled. -/
structure Turn where
  call : TransitionCall
  handledAt : Int
  deriving DecidableEq, Repr

section

variable (env : HandlerEnv)

/-- The worker handles one event. An event whose handler throws stays for a retry. -/
def handleNext (now : Int) (s : StatusDb) (event : TimerEvent) : StatusDb :=
  let handled := handleRecompute env.addBusinessMinutes now s.tables event
  { s with
    tables := handled.1
    pending := match handled.2 with
      | .threw _ => s.pending ++ [event]
      | _ => s.pending }

def drainPending (now : Int) (s : StatusDb) : StatusDb :=
  s.pending.foldl (handleNext env now) { s with pending := [] }

/-- A call that raises leaves the database as it was. -/
def callTransition (s : StatusDb) (c : TransitionCall) : StatusDb :=
  match transitionEntityStatus env.tenantId s c with
  | .ok s' => s'
  | .error _ => s

def turn (s : StatusDb) (t : Turn) : StatusDb :=
  drainPending env t.handledAt (callTransition env s t.call)

end

/-! ## The law -/

/-- What a timer that is not completed is doing. -/
inductive TimerPhase where
  | running
  | paused
  | stopped
  deriving DecidableEq, Repr

def SlaTimer.phase (t : SlaTimer) : TimerPhase :=
  if t.stoppedAt.isSome then .stopped else if t.paused then .paused else .running

def demandedPhase (pauseReasons : Option (List String)) (c : StatusColumns) : TimerPhase :=
  if isTerminal c.statusCategory then .stopped
  else if shouldPause pauseReasons c then .paused
  else .running

def CaseTables.openTimers (db : CaseTables) (id : String) : List SlaTimer :=
  db.timers.filter fun t => t.ticketId == id && t.completedAt.isNone

/-- The timers of `e` are where its status wants them, and none waits to be computed. -/
def FollowsAt (db : CaseTables) (e : Entity) : Prop :=
  ∀ policy, db.policyOf e = some policy → ∀ t ∈ db.openTimers e.id,
    t.phase = demandedPhase policy.pauseOnWaitingReasons e.columns ∧ t.recomputePending = false

/-- The timers of every case and work order with a policy follow its status. -/
def Follows (db : CaseTables) : Prop := ∀ e ∈ db.entities.rows, FollowsAt db e

/-! ## The condition -/

/-- `e` has a policy, and a timer that is not completed. -/
def CaseTables.Tracked (db : CaseTables) (e : Entity) (policy : SlaPolicy) : Prop :=
  db.policyOf e = some policy ∧ db.openTimers e.id ≠ []

/-- The status stays settled, or it stays where the timers run and does not leave `waiting`. -/
def KeepsPhase (pauseReasons : Option (List String)) (prev next : StatusColumns) : Prop :=
  (isTerminal prev.statusCategory = true ∧ isTerminal next.statusCategory = true) ∨
    ((isTerminal prev.statusCategory = false ∧ isTerminal next.statusCategory = false) ∧
      (shouldPause pauseReasons prev = false ∧ shouldPause pauseReasons next = false) ∧
      (prev.statusCategory = "waiting" → next.statusCategory = "waiting"))

/-- The rollup leaves the parent in its phase: the parent is settled, or its timers run and one
of its children is still open. -/
def ParentKeepsPhase (pauseReasons : Option (List String)) (children : List String)
    (parent : StatusColumns) : Prop :=
  isTerminal parent.statusCategory = true ∨
    (shouldPause pauseReasons parent = false ∧ ∃ category ∈ children, isTerminal category = false)

/-- The call passes every check, and moves the row `e` to `next`. -/
structure Accepted (s : StatusDb) (c : TransitionCall) (e : Entity) (next : StatusColumns) :
    Prop where
  key : c.idempotencyKey ≠ ""
  fresh : s.ops.get? c.idempotencyKey = none
  found : s.tables.entity? c.kind c.entityId = some e
  checked : transition c.kind (s.tables.openChildren e.id) c.now e.columns c.payload = .ok (some next)
  parentOpen : s.tables.reopensUnderSettled e next = false
  room : ∃ outbox, emitAll s.outbox (statusEvents c e.columns next
    (timerAction (s.tables.pauseReasonsOf e) e.columns next)) = .ok outbox

/-- The call is refused or changes nothing, or the entity and its parent keep the phase of the
timers that they have. -/
def Quiet (s : StatusDb) (t : Turn) : Prop :=
  ∀ e next, Accepted s t.call e next →
    (∀ policy, s.tables.Tracked e policy →
      KeepsPhase policy.pauseOnWaitingReasons e.columns next) ∧
    ∀ parent, (rolledParent e next).bind s.tables.ticket? = some parent →
      ∀ policy, s.tables.Tracked parent policy →
        ParentKeepsPhase policy.pauseOnWaitingReasons
          ((s.tables.writeRow e next).childCategories parent.id) parent.columns

/-! ## Phases -/

variable {now : Int}

section Phases

variable {reasons : Option (List String)} {prev next : StatusColumns} {parent : StatusColumns}
  {children : List String}

theorem shouldPause_waiting (h : shouldPause reasons next = true) :
    next.statusCategory = "waiting" := by
  unfold shouldPause at h
  simpa using (Bool.and_eq_true_iff.mp h).1

theorem demandedPhase_eq_stopped :
    demandedPhase reasons next = .stopped ↔ isTerminal next.statusCategory = true := by
  unfold demandedPhase
  split_ifs <;> simp_all

theorem demandedPhase_eq_running :
    demandedPhase reasons next = .running ↔
      isTerminal next.statusCategory = false ∧ shouldPause reasons next = false := by
  unfold demandedPhase
  split_ifs <;> simp_all

theorem keepsPhase_iff :
    KeepsPhase reasons prev next ↔
      demandedPhase reasons prev = demandedPhase reasons next ∧
        (timerAction reasons prev next = none ∨ demandedPhase reasons prev = .stopped) := by
  cases hprev : isTerminal prev.statusCategory with
  | true =>
    have hstopped : demandedPhase reasons prev = .stopped := demandedPhase_eq_stopped.mpr hprev
    rw [hstopped, eq_comm, demandedPhase_eq_stopped]
    simp [KeepsPhase, hprev]
  | false =>
    have hnot : demandedPhase reasons prev ≠ .stopped := by
      rw [Ne, demandedPhase_eq_stopped, hprev]
      decide
    cases hpause : shouldPause reasons next with
    | true =>
      have haction : timerAction reasons prev next = some .pause := by
        simp [timerAction, hpause]
      simp [KeepsPhase, hprev, hpause, haction, hnot]
    | false =>
      cases hnext : isTerminal next.statusCategory with
      | true =>
        have hstopped : demandedPhase reasons next = .stopped :=
          demandedPhase_eq_stopped.mpr hnext
        rw [hstopped]
        simp [KeepsPhase, hprev, hnext, hnot]
      | false =>
        have hrunning : demandedPhase reasons next = .running :=
          demandedPhase_eq_running.mpr ⟨hnext, hpause⟩
        rw [hrunning, demandedPhase_eq_running, or_iff_left hnot]
        simp [KeepsPhase, timerAction, settles, hprev, hnext, hpause]

theorem demandedPhase_rollup_open (hparent : isTerminal parent.statusCategory = false)
    (hopen : ∃ category ∈ children, isTerminal category = false) :
    demandedPhase reasons (rollup now children parent) = .running := by
  have hany : (children.any fun c => !isTerminal c) = true := by
    obtain ⟨category, hmem, hcategory⟩ := hopen
    exact List.any_eq_true.mpr ⟨category, hmem, by simp [hcategory]⟩
  have hrunning : ∀ c : StatusColumns, isTerminal c.statusCategory = false →
      c.statusCategory ≠ "waiting" → demandedPhase reasons c = .running := by
    intro c hc hwaiting
    apply demandedPhase_eq_running.mpr
    refine ⟨hc, ?_⟩
    by_contra hpause
    exact hwaiting (shouldPause_waiting (by simpa using hpause))
  unfold rollup
  split_ifs with hprogress hkeep hkeep
  · apply hrunning parent hparent
    intro hwaiting
    rw [hwaiting] at hkeep
    exact absurd hkeep (by decide)
  · exact hrunning _ rfl (by simp)
  · apply hrunning parent hparent
    intro hwaiting
    rw [hwaiting] at hkeep
    exact absurd hkeep (by decide)
  · exact hrunning _ rfl (by simp)

theorem parentKeepsPhase_iff :
    ParentKeepsPhase reasons children parent ↔
      demandedPhase reasons parent = demandedPhase reasons (rollup now children parent) := by
  cases hparent : isTerminal parent.statusCategory with
  | true =>
    rw [rollup_of_terminal hparent]
    simp [ParentKeepsPhase, hparent]
  | false =>
    have hnot : demandedPhase reasons parent ≠ .stopped := by
      rw [Ne, demandedPhase_eq_stopped, hparent]
      decide
    by_cases hopen : ∃ category ∈ children, isTerminal category = false
    · rw [demandedPhase_rollup_open hparent hopen, demandedPhase_eq_running]
      simp only [ParentKeepsPhase, hparent, Bool.false_eq_true, false_or, hopen, and_true,
        true_and]
    · have hsettled : ∀ category ∈ children, isTerminal category = true := by
        intro category hmem
        by_contra hcategory
        exact hopen ⟨category, hmem, by simpa using hcategory⟩
      have hstopped : demandedPhase reasons (rollup now children parent) = .stopped := by
        apply demandedPhase_eq_stopped.mpr
        rw [rollup_of_settled hparent hsettled]
        decide
      rw [hstopped]
      simp only [ParentKeepsPhase, hparent, Bool.false_eq_true, false_or, hopen, and_false, hnot]

end Phases

/-! ## What a call writes -/

section Writes

variable {db : CaseTables} {now : Int} {e x : Entity} {next : StatusColumns}

/-- The columns of a row after the transition of `e`. -/
def CaseTables.columnsAfter (db : CaseTables) (now : Int) (e : Entity) (next : StatusColumns)
    (x : Entity) : StatusColumns :=
  if x.id = e.id then next
  else if rolledParent e next = some x.id ∧ x.kind = .case then
    rollup now ((db.writeRow e next).childCategories x.id) x.columns
  else x.columns

theorem mem_writeStatus (he : e ∈ db.entities.rows) {y : Entity} :
    y ∈ (db.writeStatus now e next).entities.rows ↔
      ∃ x ∈ db.entities.rows, y = { x with columns := db.columnsAfter now e next x } := by
  have hwritten : ∀ x : Entity,
      Table.updated (fun x => x.id == e.id) (setColumns fun _ => next) x =
        { x with columns := if x.id = e.id then next else x.columns } := by
    intro x
    by_cases hx : x.id = e.id
    · rw [Table.updated_of_true (by simpa using hx), if_pos hx]
      rfl
    · rw [Table.updated_of_false (by simpa using hx), if_neg hx]
  cases hparent : rolledParent e next with
  | none =>
    have hdb : db.writeStatus now e next = db.writeRow e next := by
      simp only [CaseTables.writeStatus, hparent]
    rw [hdb]
    show y ∈ (db.entities.update _ _).rows ↔ _
    rw [Table.mem_update]
    apply exists_congr
    intro x
    apply and_congr_right
    intro _
    rw [hwritten, eq_comm]
    simp [CaseTables.columnsAfter, hparent]
  | some parent =>
    have hkind : e.kind = .workOrder := by
      unfold rolledParent at hparent
      split_ifs at hparent with h
      exact h.1
    have hdb : db.writeStatus now e next = (db.writeRow e next).setTicket parent
        (setColumns (rollup now ((db.writeRow e next).childCategories parent))) := by
      simp only [CaseTables.writeStatus, hparent]
    rw [hdb]
    show y ∈ (Table.update (db.entities.update _ _) _ _).rows ↔ _
    rw [Table.mem_update]
    simp only [Table.mem_update, exists_exists_and_eq_and, hwritten]
    apply exists_congr
    intro x
    apply and_congr_right
    intro hx
    rw [eq_comm]
    by_cases hself : x.id = e.id
    · have hxe : x = e := db.entities.eq_of_key_eq hx he hself
      subst hxe
      rw [Table.updated_of_false (by simp [hkind])]
      simp [CaseTables.columnsAfter]
    · by_cases htarget : x.id = parent ∧ x.kind = .case
      · obtain ⟨rfl, hcase⟩ := htarget
        rw [Table.updated_of_true (by simp [hcase])]
        simp [CaseTables.columnsAfter, setColumns, hself, hparent, hcase]
      · have hcond : ¬(some parent = some x.id ∧ x.kind = .case) := by
          rintro ⟨hid, hcase⟩
          exact htarget ⟨(Option.some.inj hid).symm, hcase⟩
        rw [Table.updated_of_false (by simpa using htarget)]
        simp only [CaseTables.columnsAfter, if_neg hself, hparent, if_neg hcond]

@[simp] theorem writeStatus_policies : (db.writeStatus now e next).policies = db.policies := by
  unfold CaseTables.writeStatus
  cases rolledParent e next <;> rfl

@[simp] theorem writeStatus_timers : (db.writeStatus now e next).timers = db.timers := by
  unfold CaseTables.writeStatus
  cases rolledParent e next <;> rfl

end Writes

/-! ## The law for one row -/

theorem markPending_phase (id : String) (t : SlaTimer) : (markPending id t).phase = t.phase := by
  unfold markPending
  split_ifs <;> rfl

variable {t : SlaTimer} {f : SlaTimer → SlaTimer} {db db' : CaseTables}

theorem markPending_of_ne {id : String} (h : t.ticketId ≠ id) : markPending id t = t := by
  simp [markPending, h]

theorem openTimers_map (htimers : db'.timers = db.timers.map f)
    (hid : ∀ t, (f t).ticketId = t.ticketId) (hcompleted : ∀ t, (f t).completedAt = t.completedAt)
    (id : String) : db'.openTimers id = (db.openTimers id).map f := by
  unfold CaseTables.openTimers
  rw [htimers, List.filter_map]
  congr 1
  apply List.filter_congr
  intro t _
  simp [hid, hcompleted]

/-- A row whose columns become `next` and whose timers go through a map that keeps their phase
follows its status exactly when the phase that is asked for stays and nothing is marked. -/
theorem followsAt_moved {x : Entity} {next : StatusColumns} (h : FollowsAt db x)
    (hpolicies : db'.policies = db.policies)
    (htimers : db'.openTimers x.id = (db.openTimers x.id).map f)
    (hphase : ∀ t, (f t).phase = t.phase) : FollowsAt db' { x with columns := next } ↔
      ∀ policy, db.Tracked x policy →
        demandedPhase policy.pauseOnWaitingReasons x.columns =
            demandedPhase policy.pauseOnWaitingReasons next ∧
          ∀ t ∈ db.openTimers x.id, (f t).recomputePending = false := by
  have hpolicy : ∀ policy, db'.policyOf { x with columns := next } = some policy ↔
      db.policyOf x = some policy := by
    have hfind : db'.policy? = db.policy? := by
      funext id
      simp only [CaseTables.policy?, hpolicies]
    intro policy
    simp only [CaseTables.policyOf, hfind]
  constructor
  · intro hnext policy htracked
    have hall := hnext policy ((hpolicy policy).mpr htracked.1)
    constructor
    · obtain ⟨t, ht⟩ := List.exists_mem_of_ne_nil _ htracked.2
      have hmoved : (f t).phase = demandedPhase policy.pauseOnWaitingReasons next :=
        (hall (f t) (by
          show f t ∈ db'.openTimers x.id
          rw [htimers]
          exact List.mem_map_of_mem ht)).1
      rw [← hmoved, hphase, (h policy htracked.1 t ht).1]
    · intro t ht
      exact (hall (f t) (by
        show f t ∈ db'.openTimers x.id
        rw [htimers]
        exact List.mem_map_of_mem ht)).2
  · intro hkeeps policy hsome t' ht'
    have hmem : t' ∈ (db.openTimers x.id).map f := by
      rw [← htimers]
      exact ht'
    obtain ⟨t, ht, rfl⟩ := List.mem_map.mp hmem
    have hsome' := (hpolicy policy).mp hsome
    obtain ⟨hsame, hunmarked⟩ := hkeeps policy ⟨hsome', List.ne_nil_of_mem ht⟩
    refine ⟨?_, hunmarked t ht⟩
    rw [hphase, (h policy hsome' t ht).1]
    exact hsame

/-! ## One call -/

section Calls

variable {env : HandlerEnv} {s : StatusDb} {c : TransitionCall} {e : Entity} {next : StatusColumns}

/-- The tables after a call that moves `e` to `next`. -/
def tablesAfter (s : StatusDb) (c : TransitionCall) (e : Entity) (next : StatusColumns) :
    CaseTables :=
  { s.tables.writeStatus c.now e next with
    timers :=
      if (timerAction (s.tables.pauseReasonsOf e) e.columns next).isSome then
        s.tables.timers.map (markPending e.id)
      else s.tables.timers }

theorem callTransition_accepted (h : Accepted s c e next) :
    (callTransition env s c).tables = tablesAfter s c e next ∧
      (callTransition env s c).pending = s.pending ++
        newPending env.tenantId s c e.columns next
          (timerAction (s.tables.pauseReasonsOf e) e.columns next) := by
  obtain ⟨outbox, houtbox⟩ := h.room
  have hrow : transitionEntityStatus env.tenantId s c = transitionRow env.tenantId s c e := by
    unfold transitionEntityStatus
    rw [if_neg h.key, gate_eq_proceed.mpr h.fresh]
    simp only [h.found]
  unfold callTransition
  rw [hrow]
  unfold transitionRow
  rw [h.checked]
  simp only [h.parentOpen, Bool.false_eq_true, if_false, houtbox, writeStatus_timers]
  exact ⟨rfl, trivial⟩

theorem callTransition_refused (h : ∀ e next, ¬Accepted s c e next) :
    (callTransition env s c).tables = s.tables ∧
      (callTransition env s c).pending = s.pending := by
  unfold callTransition
  cases hcall : transitionEntityStatus env.tenantId s c with
  | error message => exact ⟨rfl, rfl⟩
  | ok s' =>
    unfold transitionEntityStatus at hcall
    split_ifs at hcall with hkey
    cases hgate : gate s.ops c.idempotencyKey c.payload with
    | error problem =>
      rw [hgate] at hcall
      cases problem <;> cases hcall
    | ok answer =>
      rw [hgate] at hcall
      cases answer with
      | cached result =>
        obtain rfl := Except.ok.inj hcall
        exact ⟨rfl, rfl⟩
      | proceed =>
        cases hfound : s.tables.entity? c.kind c.entityId with
        | none =>
          simp only [hfound] at hcall
          cases hcall
        | some e =>
          simp only [hfound] at hcall
          unfold transitionRow at hcall
          split at hcall
          · cases hcall
          · obtain rfl := Except.ok.inj hcall
            exact ⟨rfl, rfl⟩
          next next hchecked =>
            split_ifs at hcall with hparent
            simp only at hcall
            split at hcall
            · cases hcall
            next outbox houtbox =>
              exact absurd
                { key := hkey
                  fresh := gate_eq_proceed.mp hgate
                  found := hfound
                  checked := hchecked
                  parentOpen := by simpa using hparent
                  room := ⟨outbox, houtbox⟩ } (h e next)

theorem mem_of_found (h : s.tables.entity? c.kind c.entityId = some e) :
    e ∈ s.tables.entities.rows ∧ e.id = c.entityId ∧ e.kind = c.kind := by
  obtain ⟨hget, hkind⟩ := Option.filter_eq_some_iff.mp h
  obtain ⟨hmem, hid⟩ := Table.get?_eq_some.mp hget
  exact ⟨hmem, hid, by simpa using hkind⟩

/-- The events of the command name no tenant, so that their handling changes no table and ends
every one of them. -/
theorem drainPending_unnamed (h : ∀ event ∈ s.pending, event.payload.tenantId = none) :
    (drainPending env now s).tables = s.tables ∧ (drainPending env now s).pending = [] := by
  have hfold : ∀ (events : List TimerEvent) (s : StatusDb),
      (∀ event ∈ events, event.payload.tenantId = none) →
        events.foldl (handleNext env now) s = s := by
    intro events
    induction events with
    | nil =>
      intro s _
      rfl
    | cons event events ih =>
      intro s hevents
      have hhandled : handleNext env now s event = s := by
        unfold handleNext
        rw [handleRecompute_no_tenant (hevents event List.mem_cons_self)]
      rw [List.foldl_cons, hhandled]
      exact ih s fun event' h' => hevents event' (List.mem_cons_of_mem event h')
  unfold drainPending
  rw [hfold _ _ h]
  exact ⟨rfl, rfl⟩

theorem newPending_unnamed {tenantId : String} {prev : StatusColumns}
    {action : Option TimerAction} {event : TimerEvent}
    (h : event ∈ newPending tenantId s c prev next action) : event.payload.tenantId = none := by
  unfold newPending at h
  split_ifs at h
  · cases h
  · cases action with
    | none => cases h
    | some a =>
      obtain rfl : event = _ := by simpa using h
      rfl

theorem active_of_phase (hcompleted : t.completedAt = none) (hphase : t.phase ≠ .stopped) :
    t.active = true := by
  have hstopped : t.stoppedAt = none := by
    by_contra hsome
    apply hphase
    unfold SlaTimer.phase
    rw [if_pos (Option.isSome_iff_ne_none.mpr hsome)]
  simp [SlaTimer.active, hcompleted, hstopped]

/-- What the command does to the timers. -/
def markedBy (s : StatusDb) (e : Entity) (next : StatusColumns) (t : SlaTimer) : SlaTimer :=
  if (timerAction (s.tables.pauseReasonsOf e) e.columns next).isSome then markPending e.id t else t

theorem markedBy_phase (t : SlaTimer) : (markedBy s e next t).phase = t.phase := by
  unfold markedBy
  split_ifs
  · exact markPending_phase e.id t
  · rfl

theorem markedBy_of_ne (h : t.ticketId ≠ e.id) : markedBy s e next t = t := by
  unfold markedBy
  rw [markPending_of_ne h, ite_self]

theorem openTimers_tablesAfter (id : String) :
    (tablesAfter s c e next).openTimers id =
      (s.tables.openTimers id).map (markedBy s e next) := by
  apply openTimers_map
  · show (if _ then _ else _) = _
    split_ifs with haction
    · apply List.map_congr_left
      intro t _
      simp [markedBy, haction]
    · have hsame : markedBy s e next = fun t => t := by
        funext t
        simp [markedBy, haction]
      rw [hsame, List.map_id']
  · intro t
    unfold markedBy markPending
    split_ifs <;> rfl
  · intro t
    unfold markedBy markPending
    split_ifs <;> rfl

theorem unmarked_iff {policy : SlaPolicy} (h : FollowsAt s.tables e)
    (htracked : s.tables.Tracked e policy) :
    (∀ t ∈ s.tables.openTimers e.id, (markedBy s e next t).recomputePending = false) ↔
      timerAction policy.pauseOnWaitingReasons e.columns next = none ∨
        demandedPhase policy.pauseOnWaitingReasons e.columns = .stopped := by
  have hreasons : s.tables.pauseReasonsOf e = policy.pauseOnWaitingReasons := by
    unfold CaseTables.pauseReasonsOf
    rw [htracked.1]
    rfl
  constructor
  · intro hunmarked
    obtain ⟨t, ht⟩ := List.exists_mem_of_ne_nil _ htracked.2
    obtain ⟨hid, hcompleted⟩ : t.ticketId = e.id ∧ t.completedAt = none := by
      simpa [CaseTables.openTimers] using (List.mem_filter.mp ht).2
    by_contra hneither
    obtain ⟨haction, hstopped⟩ := not_or.mp hneither
    have hactive : t.active = true :=
      active_of_phase hcompleted (by rw [(h policy htracked.1 t ht).1]; exact hstopped)
    have hmarked : (markedBy s e next t).recomputePending = true := by
      have hsome := Option.isSome_iff_ne_none.mpr haction
      simp [markedBy, hreasons, hsome, markPending, hid, hactive]
    rw [hunmarked t ht] at hmarked
    cases hmarked
  · intro hneither t ht
    have hsame : markedBy s e next t = t := by
      rcases hneither with haction | hstopped
      · simp [markedBy, hreasons, haction]
      · have hphase : t.phase = .stopped := by rw [(h policy htracked.1 t ht).1, hstopped]
        have hinactive : t.active = false := by
          unfold SlaTimer.phase at hphase
          split_ifs at hphase with hat
          simp [SlaTimer.active, Option.isNone_eq_false_iff.mpr hat]
        simp [markedBy, markPending, hinactive]
    rw [hsame]
    exact (h policy htracked.1 t ht).2

theorem tablesAfter_policies : (tablesAfter s c e next).policies = s.tables.policies :=
  writeStatus_policies

theorem followsAt_self (h : FollowsAt s.tables e) :
    FollowsAt (tablesAfter s c e next) { e with columns := next } ↔
      ∀ policy, s.tables.Tracked e policy →
        KeepsPhase policy.pauseOnWaitingReasons e.columns next := by
  rw [followsAt_moved h tablesAfter_policies (openTimers_tablesAfter e.id) markedBy_phase]
  apply forall_congr'
  intro policy
  apply forall_congr'
  intro htracked
  rw [keepsPhase_iff, unmarked_iff h htracked]

theorem followsAt_other {x : Entity} {columns : StatusColumns} (h : FollowsAt s.tables x)
    (hne : x.id ≠ e.id) :
    FollowsAt (tablesAfter s c e next) { x with columns := columns } ↔
      ∀ policy, s.tables.Tracked x policy →
        demandedPhase policy.pauseOnWaitingReasons x.columns =
          demandedPhase policy.pauseOnWaitingReasons columns := by
  rw [followsAt_moved h tablesAfter_policies (openTimers_tablesAfter x.id) markedBy_phase]
  apply forall_congr'
  intro policy
  apply forall_congr'
  intro htracked
  apply and_iff_left
  intro t ht
  have hid : t.ticketId = x.id := by
    have hboth : t.ticketId = x.id ∧ t.completedAt = none := by
      simpa [CaseTables.openTimers] using (List.mem_filter.mp ht).2
    exact hboth.1
  rw [markedBy_of_ne (by rw [hid]; exact hne)]
  exact (h policy htracked.1 t ht).2

theorem Accepted.unique {e' : Entity} {next' : StatusColumns} (h : Accepted s c e next)
    (h' : Accepted s c e' next') : e' = e ∧ next' = next := by
  obtain rfl : e' = e := Option.some.inj (h'.found.symm.trans h.found)
  exact ⟨rfl, Option.some.inj (Except.ok.inj (h'.checked.symm.trans h.checked))⟩

theorem rolled_parent {parent : Entity} (he : e ∈ s.tables.entities.rows)
    (h : (rolledParent e next).bind s.tables.ticket? = some parent) :
    parent ∈ s.tables.entities.rows ∧ rolledParent e next = some parent.id ∧
      parent.kind = .case ∧ parent.id ≠ e.id := by
  obtain ⟨id, hrolled, hticket⟩ := Option.bind_eq_some_iff.mp h
  obtain ⟨hget, hkind⟩ := Option.filter_eq_some_iff.mp hticket
  obtain ⟨hmem, hid⟩ := Table.get?_eq_some.mp hget
  have hcase : parent.kind = .case := by simpa using hkind
  have horder : e.kind = .workOrder := by
    unfold rolledParent at hrolled
    split_ifs at hrolled with hcond
    exact hcond.1
  refine ⟨hmem, ?_, hcase, ?_⟩
  · rw [hrolled]
    exact congrArg some hid.symm
  · intro hsame
    rw [s.tables.entities.eq_of_key_eq hmem he hsame, horder] at hcase
    cases hcase

theorem follows_accepted {t : Turn} (hs : Follows s.tables) (h : Accepted s t.call e next) :
    Follows (tablesAfter s t.call e next) ↔ Quiet s t := by
  have he : e ∈ s.tables.entities.rows := (mem_of_found h.found).1
  constructor
  · intro hafter e' next' h'
    obtain ⟨rfl, rfl⟩ := h.unique h'
    constructor
    · have hself := hafter { e' with columns := next' }
        ((mem_writeStatus he).mpr ⟨e', he, by simp [CaseTables.columnsAfter]⟩)
      exact (followsAt_self (hs e' he)).mp hself
    · intro parent hparent policy htracked
      obtain ⟨hmem, hrolled, hcase, hne⟩ := rolled_parent he hparent
      have hcolumns : s.tables.columnsAfter t.call.now e' next' parent =
          rollup t.call.now ((s.tables.writeRow e' next').childCategories parent.id)
            parent.columns := by
        simp [CaseTables.columnsAfter, hne, hrolled, hcase]
      have hmoved := hafter { parent with columns := _ }
        ((mem_writeStatus he).mpr ⟨parent, hmem, rfl⟩)
      rw [hcolumns] at hmoved
      apply parentKeepsPhase_iff.mpr
      exact (followsAt_other (hs parent hmem) hne).mp hmoved policy htracked
  · intro hquiet y hy
    obtain ⟨hself, hparent⟩ := hquiet e next h
    obtain ⟨x, hx, rfl⟩ := (mem_writeStatus he).mp hy
    by_cases hid : x.id = e.id
    · obtain rfl : x = e := s.tables.entities.eq_of_key_eq hx he hid
      have hcolumns : s.tables.columnsAfter t.call.now x next x = next := by
        simp [CaseTables.columnsAfter]
      rw [hcolumns]
      exact (followsAt_self (hs x hx)).mpr hself
    · apply (followsAt_other (hs x hx) hid).mpr
      intro policy htracked
      by_cases hrolled : rolledParent e next = some x.id ∧ x.kind = .case
      · have hticket : (rolledParent e next).bind s.tables.ticket? = some x := by
          rw [hrolled.1]
          show s.tables.ticket? x.id = some x
          have hget : s.tables.entities.get? x.id = some x := Table.get?_of_mem hx
          simp [CaseTables.ticket?, CaseTables.entity?, hget, hrolled.2]
        simp only [CaseTables.columnsAfter, if_neg hid, if_pos hrolled]
        exact parentKeepsPhase_iff.mp (hparent x hticket policy htracked)
      · simp only [CaseTables.columnsAfter, if_neg hid, if_neg hrolled]

theorem follows_turn {t : Turn} (hs : Follows s.tables ∧ s.pending = []) :
    (Follows (turn env s t).tables ∧ (turn env s t).pending = []) ↔ Quiet s t := by
  by_cases haccepted : ∃ e next, Accepted s t.call e next
  · obtain ⟨e, next, haccepted⟩ := haccepted
    obtain ⟨hmoved, hemitted⟩ :
        (callTransition env s t.call).tables = tablesAfter s t.call e next ∧ _ :=
      callTransition_accepted haccepted
    have hdrained : (turn env s t).tables = (callTransition env s t.call).tables ∧
        (turn env s t).pending = [] := by
      apply drainPending_unnamed
      intro event hevent
      rw [hemitted, hs.2, List.nil_append] at hevent
      exact newPending_unnamed hevent
    rw [hdrained.1, hdrained.2, hmoved, and_iff_left rfl]
    exact follows_accepted hs.1 haccepted
  · have hnone : ∀ e next, ¬Accepted s t.call e next :=
      fun e next h => haccepted ⟨e, next, h⟩
    have hsame : (callTransition env s t.call).tables = s.tables ∧
        (callTransition env s t.call).pending = s.pending :=
      callTransition_refused hnone
    have hdrained : (turn env s t).tables = (callTransition env s t.call).tables ∧
        (turn env s t).pending = [] := by
      apply drainPending_unnamed
      rw [hsame.2, hs.2]
      simp
    rw [hdrained.1, hdrained.2, hsame.1]
    apply iff_of_true ⟨hs.1, rfl⟩
    intro e next h
    exact absurd h (hnone e next)

end Calls

/-! ## Runs -/

/-- Along a run that starts with timers that follow the status and nothing left to handle, the
timers follow the status after every turn exactly when every turn is quiet. -/
theorem follows_iff_quiet (env : HandlerEnv) {s : StatusDb} (hs : Follows s.tables)
    (hpending : s.pending = []) (turns : List Turn) :
    (∀ pre post, turns = pre ++ post →
        Follows (run (turn env) s pre).tables ∧ (run (turn env) s pre).pending = []) ↔
      Guarded (turn env) Quiet s turns := by
  have hguard : Guarded (turn env) (fun _ _ => True) s turns := by
    rw [guarded_iff]
    intro pre a post _
    trivial
  exact invariant_iff_guarded (I := fun s => Follows s.tables ∧ s.pending = [])
    (fun s t h _ => follows_turn h) ⟨hs, hpending⟩ hguard

/-- A case with a policy and a running timer. -/
def assignedCase : StatusDb where
  tables :=
    { entities :=
        { rows :=
            [{ id := "case"
               kind := .case
               columns := { status := "assigned", statusCategory := "assigned" }
               slaId := some "gold" }]
          nodup := by decide }
      policies := [{ id := "gold", resolutionTimeMinutes := some 240 }]
      timers :=
        [{ ticketId := "case", slaPolicyId := "gold", timerType := .resolution
           targetMinutes := 240, dueAt := 240, startedAt := 0 }] }

def moveTo (category : String) (reason : Option String) : Turn where
  call :=
    { entityId := "case", kind := .case, idempotencyKey := category, now := 10
      payload :=
        { status := some (some category), statusCategory := some (some category)
          waitingReason := some reason } }
  handledAt := 11

theorem follows_assignedCase : Follows assignedCase.tables := by
  intro e he policy hpolicy
  obtain rfl : e = _ := List.mem_singleton.mp he
  obtain rfl : _ = policy := Option.some.inj hpolicy
  decide

/-- A case that is put on hold for its requester keeps a running timer, marked to be computed. -/
theorem onHold_notPaused :
    ¬∀ (env : HandlerEnv) (s : StatusDb) (turns : List Turn), Follows s.tables → s.pending = [] →
      Follows (run (turn env) s turns).tables := by
  intro h
  have hfollows := h clockMinutes assignedCase [moveTo "waiting" (some "requester")]
    follows_assignedCase rfl
  have hcase := hfollows
    { id := "case"
      kind := .case
      columns := { status := "waiting", statusCategory := "waiting"
                   waitingReason := some "requester" }
      slaId := some "gold" } (by decide +kernel)
    { id := "gold", resolutionTimeMinutes := some 240 } (by decide +kernel)
    { ticketId := "case", slaPolicyId := "gold", timerType := .resolution
      targetMinutes := 240, dueAt := 240, startedAt := 0, recomputePending := true }
    (by decide +kernel)
  exact absurd hcase.2 (by decide)

/-- A case that is taken up keeps its timer running. -/
theorem takenUp_follows :
    Follows (run (turn clockMinutes) assignedCase [moveTo "in_progress" none]).tables := by
  have hall := (follows_iff_quiet clockMinutes follows_assignedCase rfl
    [moveTo "in_progress" none]).mpr
  refine (hall ⟨?_, trivial⟩ _ [] (List.append_nil _).symm).1
  intro e next h
  obtain rfl : _ = e := Option.some.inj h.found
  obtain rfl : _ = next := Option.some.inj (Except.ok.inj h.checked)
  constructor
  · intro policy htracked
    obtain rfl : _ = policy := Option.some.inj htracked.1
    exact keepsPhase_iff.mpr (by decide +kernel)
  · intro parent hparent
    cases hparent

end Prequest.Cases
