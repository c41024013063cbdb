import Prequest.Sla.Tick

/-!
# Overlapping ticks

Several API instances run ticks at once. A tick is a sequence of calls to the
database, each of which commits on its own; the calls of different ticks
interleave, and any call may fail before or after it has taken effect, or be
the last one of an instance that stops.

The exceptions are caught where the source catches them: a failed read of a
batch is an empty batch, a failed firing ends its timer, and a failed side
effect is logged. A failed read of the requester or of the manager is not
caught at all: it reads as a requester without a manager.

* `alone_eq_tick`: a tick with the database to itself is `tick`.
-/

namespace Prequest.Sla

open Prequest.Lib Prequest.Command

inductive TickState where
  | idle
  | marking (now : Int) (timerIds : List Nat)
  | selecting (now : Int)
  | loadingPolicies (now : Int) (timers : List SlaTimerRow)
  | loadingCrossings (now : Int) (timers : List (SlaTimerRow × List EscalationThreshold))
  | pass (work : List (SlaTimerRow × List EscalationThreshold))
  | fire (timer : SlaTimerRow) (threshold : EscalationThreshold) (pc : FirePc)
      (thresholds : List EscalationThreshold)
      (work : List (SlaTimerRow × List EscalationThreshold))
  | ended
  deriving DecidableEq

def workOf (now : Int) (timers : List (SlaTimerRow × List EscalationThreshold))
    (firedKeys : List CrossingKey) : List (SlaTimerRow × List EscalationThreshold) :=
  timers.map fun t => (t.1, sortByPercent (selectApplicableThresholds t.1 now t.2 firedKeys))

section

variable (dir : Directory)

/-- What follows a call of a firing. -/
def afterFire (timer : SlaTimerRow) (threshold : EscalationThreshold) (pc : FirePc)
    (thresholds : List EscalationThreshold)
    (work : List (SlaTimerRow × List EscalationThreshold)) : TickState :=
  match pc with
  | .done => .pass ((timer, thresholds) :: work)
  | pc => .fire timer threshold pc thresholds work

def tickStep (db : SlaDb) : TickState → SlaDb × TickState
  | .idle => (db, .idle)
  | .marking now timerIds => (markSlaBreachedBatch db timerIds now, .selecting now)
  | .selecting now => (db, .loadingPolicies now (selectActive db))
  | .loadingPolicies now timers =>
      (db, .loadingCrossings now (timers.map fun t => (t, db.thresholdsOf t)))
  | .loadingCrossings now timers =>
      (db, .pass (workOf now timers (firedKeysOf db (timers.map Prod.fst))))
  | .pass [] => (db, .ended)
  | .pass ((_, []) :: work) => (db, .pass work)
  | .pass ((timer, threshold :: thresholds) :: work) =>
      (db, .fire timer threshold .load thresholds work)
  | .fire timer threshold pc thresholds work =>
      match fireStep dir timer threshold db pc with
      | .error _ => (db, .pass work)
      | .ok (db, pc) => (db, afterFire timer threshold pc thresholds work)
  | .ended => (db, .ended)

/-- Where a tick goes on when its next call fails. -/
def afterFailure (db : SlaDb) (applied : Bool) : TickState → TickState
  | .idle => .idle
  | .marking now _ => .selecting now
  | .selecting _ => .ended
  | .loadingPolicies now timers => .loadingCrossings now (timers.map fun t => (t, []))
  | .loadingCrossings now timers => .pass (workOf now timers [])
  | .pass work => .pass work
  | .fire timer threshold pc thresholds work =>
      match pc with
      | .resolve ticket =>
          match threshold.targetType with
          | .managerOfRequester => .fire timer threshold (.skip ticket) thresholds work
          | _ => .fire timer threshold pc thresholds work
      -- The read of the outgoing assignee may fail without an exception.
      | .plan ticket resolved =>
          if applied then
            match assignmentFor { dir with personOfUser := fun _ => none } ticket resolved
                (escalationReason timer threshold db) with
            | .error _ => .pass work
            | .ok none => .fire timer threshold (.cross ticket resolved false) thresholds work
            | .ok (some payload) =>
                .fire timer threshold (.assign ticket resolved payload) thresholds work
          else .pass work
      | .watch ticket resolved _ =>
          .fire timer threshold (.cross ticket resolved true) thresholds work
      | .announce _ _ => .pass ((timer, thresholds) :: work)
      | _ => .pass work
  | .ended => .ended

/-- The next call of a tick fails, before or after it has taken effect. -/
def tickFail (db : SlaDb) (applied : Bool) (s : TickState) : SlaDb × TickState :=
  (if applied then (tickStep dir db s).1 else db, afterFailure dir db applied s)

/-- The database and the ticks that run over it. -/
structure World where
  db : SlaDb
  ticks : Nat → TickState

/-- What can happen next. -/
inductive Action where
  | start (i : Nat) (now : Int)
  | advance (i : Nat)
  | fail (i : Nat) (applied : Bool)
  | crash (i : Nat) (applied : Bool)
  deriving DecidableEq, Repr

/-- The database and the tick after an action of tick `i`. -/
def World.put (w : World) (i : Nat) (next : SlaDb × TickState) : World where
  db := next.1
  ticks := Function.update w.ticks i next.2

/-- An instance starts a tick when its last one is over. -/
def TickState.resting : TickState → Bool
  | .idle => true
  | .ended => true
  | _ => false

def step (w : World) : Action → World
  | .start i now =>
      if (w.ticks i).resting then w.put i (w.db, .marking now (selectOverdue w.db now)) else w
  | .advance i => w.put i (tickStep dir w.db (w.ticks i))
  | .fail i applied => w.put i (tickFail dir w.db applied (w.ticks i))
  | .crash i applied =>
      w.put i (if applied then (tickStep dir w.db (w.ticks i)).1 else w.db, .ended)

end

/-! ## The laws -/

/-- The payload gives the ticket to the target. -/
def AssignmentPayload.assigns (payload : AssignmentPayload) (dir : Directory) : Assignee → Prop
  | .team teamId => payload.assignedTeamId = some (some teamId)
  | .person personId => ∃ userId, dir.usersOfPerson personId = [userId] ∧
      payload.assignedUserId = some (some userId)

def EntityRow.hasAssignee (ticket : EntityRow) (dir : Directory) : Assignee → Prop
  | .team teamId => ticket.assignedTeamId = some teamId
  | .person personId => ∃ userId, dir.usersOfPerson personId = [userId] ∧
      ticket.assignedUserId = some userId

section

variable (dir : Directory)

def Durable (db : SlaDb) (timer : SlaTimerRow) (threshold : EscalationThreshold)
    (resolved : Assignee) : Prop :=
  ∃ payload : AssignmentPayload,
    db.commandOperations.get? (escalationKey timer threshold) =
      some ⟨escalationKey timer threshold, .assignment payload, .success ()⟩ ∧
    payload.assigns dir resolved

/-- The ticket of the timer was read before the end of the run `as`. -/
def WasRead (w : World) (as : List Action) (timer : SlaTimerRow) (ticket : EntityRow) : Prop :=
  ∃ pre post, as = pre ++ post ∧
    loadTicketForFire (run (step dir) w pre).db timer.ticketId = some ticket

/-- The action is the call of a tick that reassigns a ticket, and it takes effect. -/
def Reassigns (w : World) (a : Action) (key : CrossingKey) : Prop :=
  (step dir w a).db.routingDecisions ≠ w.db.routingDecisions ∧
    ∃ i timer threshold ticket resolved payload thresholds work,
      (a = .advance i ∨ a = .fail i true ∨ a = .crash i true) ∧
      w.ticks i = .fire timer threshold (.assign ticket resolved payload) thresholds work ∧
      crossingKey timer threshold = key

/-- The laws for a run `as`, followed by a tick of instance `i` at `now` that nothing disturbs. -/
structure EscalatesOnce (w : World) (as : List Action) (i : Nat) (now : Int) : Prop where
  crossedOnce : ∀ pre post, as = pre ++ post →
    ∀ c ∈ (run (step dir) w pre).db.crossings.rows,
      ∀ c' ∈ (run (step dir) w pre).db.crossings.rows, c.crossed = c'.crossed → c = c'
  reassignedOnce : ∀ pre a mid a' post key, as = pre ++ a :: (mid ++ a' :: post) →
    Reassigns dir (run (step dir) w pre) a key →
    ¬ Reassigns dir (run (step dir) w (pre ++ a :: mid)) a' key
  durableFirst : ∀ pre a post, as = pre ++ a :: post →
    ∀ c ∈ (run (step dir) w (pre ++ [a])).db.crossings.rows,
      c ∉ (run (step dir) w pre).db.crossings.rows →
      ∀ timer ∈ w.db.timers.rows, ∀ threshold ∈ w.db.thresholdsOf timer,
        threshold.timerType.covers timer.timerType = true → threshold.action = .escalate →
        crossingKey timer threshold = c.crossed →
        ∀ resolved, resolveTarget dir w.db threshold timer.ticketId = some resolved →
          Durable dir (run (step dir) w pre).db timer threshold resolved ∨
            ∃ ticket, WasRead dir w pre timer ticket ∧ ticket.hasAssignee dir resolved
  retried : ∀ n, (run (step dir) w (as ++ .start i now :: List.replicate n (.advance i))).ticks i =
      .ended →
    AllDueRecorded (run (step dir) w (as ++ .start i now :: List.replicate n (.advance i))).db now

/-- The state in which a run starts: no tick runs, and nothing was escalated. -/
structure Start (w : World) : Prop where
  idle : ∀ i, w.ticks i = .idle
  batch : WithinBatch w.db
  fresh : ∀ key, w.db.commandOperations.get? (.escalation key) = none

/-- The thresholds of a timer have percentages of their own, and a person to whom a threshold
escalates has a user account. -/
structure CleanPolicies (db : SlaDb) : Prop where
  distinct : ∀ timer ∈ db.timers.rows, ∀ t ∈ db.thresholdsOf timer, ∀ t' ∈ db.thresholdsOf timer,
    t.timerType.covers timer.timerType = true → t'.timerType.covers timer.timerType = true →
      t.atPercent = t'.atPercent → t = t'
  accounts : ∀ timer ∈ db.timers.rows, ∀ t ∈ db.thresholdsOf timer, t.action = .escalate →
    ∀ person, resolveTarget dir db t timer.ticketId = some (.person person) →
      dir.usersOfPerson person ≠ []

/-- The action is not a failure of the reads that look up the manager for an escalation. -/
def ManagerRead (w : World) (a : Action) : Prop :=
  ∀ i applied timer threshold ticket thresholds work, a = .fail i applied →
    w.ticks i = .fire timer threshold (.resolve ticket) thresholds work →
    threshold.targetType = .managerOfRequester → threshold.action = .notify

end

/-! ## A tick with the database to itself -/

/-- The next call of a tick, on the pair of the database and the tick. -/
def advanceAlone (dir : Directory) (x : SlaDb × TickState) : SlaDb × TickState :=
  tickStep dir x.1 x.2

/-- Some calls of one tick lead from the first pair to the second. -/
def Reaches (dir : Directory) (x y : SlaDb × TickState) : Prop :=
  ∃ n, (advanceAlone dir)^[n] x = y

section

variable {dir : Directory} {x y z : SlaDb × TickState}

theorem Reaches.refl : Reaches dir x x := ⟨0, rfl⟩

theorem Reaches.trans (h : Reaches dir x y) (h' : Reaches dir y z) : Reaches dir x z := by
  obtain ⟨n, hn⟩ := h
  obtain ⟨m, hm⟩ := h'
  exact ⟨m + n, by rw [Function.iterate_add_apply, hn, hm]⟩

theorem Reaches.head (h : Reaches dir (tickStep dir x.1 x.2) y) : Reaches dir x y := by
  obtain ⟨n, hn⟩ := h
  exact ⟨n + 1, hn⟩

variable {timer : SlaTimerRow} {threshold : EscalationThreshold}
  {thresholds : List EscalationThreshold} {work : List (SlaTimerRow × List EscalationThreshold)}

theorem reaches_of_write (db : SlaDb) (crossing : Crossing) (reassigned : Bool) {pc : FirePc}
    (hstep : fireStep dir timer threshold db pc = .ok ((writeCrossing db crossing).1,
      if (writeCrossing db crossing).2 then .announce crossing reassigned else .done)) :
    Reaches dir (db, .fire timer threshold pc thresholds work)
      (recordCrossing db crossing reassigned, .pass ((timer, thresholds) :: work)) := by
  apply Reaches.head
  simp only [tickStep, hstep, recordCrossing]
  cases (writeCrossing db crossing).2 with
  | false => exact .refl
  | true => exact .head .refl

theorem reaches_fireThreshold (db : SlaDb) :
    Reaches dir (db, .fire timer threshold .load thresholds work)
      (match fireThreshold dir timer threshold db with
        | .error _ => (db, .pass work)
        | .ok db' => (db', .pass ((timer, thresholds) :: work))) := by
  apply Reaches.head
  unfold fireThreshold
  simp only [tickStep, fireStep]
  cases loadTicketForFire db timer.ticketId with
  | none => exact .refl
  | some ticket =>
    apply Reaches.head
    simp only [tickStep, fireStep, afterFire]
    cases resolveTarget dir db threshold ticket.id with
    | none => exact reaches_of_write db (skipCrossing timer threshold ticket) false rfl
    | some resolved =>
      simp only
      have hcross : ∀ db reassigned,
          Reaches dir (db, .fire timer threshold (.cross ticket resolved reassigned) thresholds work)
            (recordCrossing db (crossingOf timer threshold ticket resolved) reassigned,
              .pass ((timer, thresholds) :: work)) := fun db reassigned =>
        reaches_of_write db (crossingOf timer threshold ticket resolved) reassigned rfl
      cases threshold.action with
      | notify => exact hcross db false
      | escalate =>
        simp only [applyReassignment]
        apply Reaches.head
        simp only [tickStep, fireStep]
        by_cases hprobe : probeSuccess timer threshold db = true
        · simp only [hprobe, if_true, afterFire]
          exact hcross db true
        · simp only [hprobe, if_false, afterFire, Bool.false_eq_true]
          apply Reaches.head
          simp only [tickStep, fireStep]
          cases assignmentFor dir ticket resolved (escalationReason timer threshold db) with
          | error e => exact .refl
          | ok next =>
            cases next with
            | none => exact hcross db false
            | some payload =>
              simp only [afterFire]
              apply Reaches.head
              simp only [tickStep, fireStep]
              cases setEntityAssignment dir db (ticket.kind, ticket.id)
                  (escalationKey timer threshold) payload with
              | error e => exact .refl
              | ok db' => exact .head (hcross _ true)

theorem reaches_fireAll (db : SlaDb) :
    Reaches dir (db, .pass ((timer, thresholds) :: work))
      (fireAll dir timer db thresholds, .pass work) := by
  induction thresholds generalizing db with
  | nil => exact .head .refl
  | cons threshold thresholds ih =>
    apply Reaches.head
    refine (reaches_fireThreshold db).trans ?_
    rw [fireAll]
    cases fireThreshold dir timer threshold db with
    | error e => exact .refl
    | ok db' => exact ih db'

theorem reaches_pass (dir : Directory) (work : List (SlaTimerRow × List EscalationThreshold))
    (db : SlaDb) :
    Reaches dir (db, .pass work)
      (work.foldl (fun db w => fireAll dir w.1 db w.2) db, .ended) := by
  induction work generalizing db with
  | nil => exact .head .refl
  | cons w work ih => exact (reaches_fireAll db).trans (ih _)

theorem reaches_tick (dir : Directory) (db : SlaDb) (now : Int) :
    Reaches dir (db, .marking now (selectOverdue db now)) (tick dir db now, .ended) := by
  let marked := markSlaBreachedBatch db (selectOverdue db now) now
  have hwork : workOf now ((selectActive marked).map fun t => (t, marked.thresholdsOf t))
      (firedKeysOf marked (((selectActive marked).map fun t => (t, marked.thresholdsOf t)).map
        Prod.fst)) = workList marked now := by
    have hfst : ((selectActive marked).map fun t => (t, marked.thresholdsOf t)).map Prod.fst =
        selectActive marked := by
      rw [List.map_map]
      exact List.map_id _
    rw [hfst, workOf, workList, List.map_map]
    rfl
  have hpass : Reaches dir (marked, .pass (workOf now
      ((selectActive marked).map fun t => (t, marked.thresholdsOf t)) (firedKeysOf marked
        (((selectActive marked).map fun t => (t, marked.thresholdsOf t)).map Prod.fst))))
      (tick dir db now, .ended) := by
    rw [hwork]
    exact reaches_pass dir (workList marked now) marked
  -- The marking and the three reads of the batch.
  exact .head (.head (.head (.head hpass)))

end

section

variable {dir : Directory}

theorem run_advance (w : World) (i : Nat) (x : SlaDb × TickState) (n : Nat) :
    run (step dir) (w.put i x) (List.replicate n (.advance i)) =
      w.put i ((advanceAlone dir)^[n] x) := by
  induction n generalizing x with
  | zero => rfl
  | succ n ih =>
    have hstep : step dir (w.put i x) (.advance i) = w.put i (advanceAlone dir x) := by
      simp only [step, World.put, Function.update_self, Function.update_idem, advanceAlone]
    rw [List.replicate_succ, run_cons, hstep, ih, Function.iterate_succ_apply]

theorem iterate_ended (db : SlaDb) (n : Nat) :
    (advanceAlone dir)^[n] (db, .ended) = (db, .ended) :=
  Function.iterate_fixed rfl n

theorem alone_eq_tick {w : World} {i : Nat} {now : Int} (hresting : (w.ticks i).resting = true)
    {n : Nat} (hended : (run (step dir) w (.start i now :: List.replicate n (.advance i))).ticks i =
      .ended) :
    (run (step dir) w (.start i now :: List.replicate n (.advance i))).db = tick dir w.db now := by
  obtain ⟨m, hm⟩ := reaches_tick dir w.db now
  rw [run_cons] at hended ⊢
  simp only [step, hresting, if_true] at hended ⊢
  rw [run_advance] at hended ⊢
  simp only [World.put, Function.update_self] at hended ⊢
  generalize hx : (advanceAlone dir)^[n] (w.db, .marking now (selectOverdue w.db now)) = x
    at hended ⊢
  have hx' : x = (x.1, .ended) := by rw [← hended]
  rcases Nat.le_total n m with hnm | hmn
  · obtain ⟨k, rfl⟩ := Nat.exists_eq_add_of_le' hnm
    rw [Function.iterate_add_apply, hx, hx', iterate_ended] at hm
    exact congrArg Prod.fst hm
  · obtain ⟨k, rfl⟩ := Nat.exists_eq_add_of_le' hmn
    rw [Function.iterate_add_apply, hm, iterate_ended] at hx
    rw [← hx]

end

end Prequest.Sla
