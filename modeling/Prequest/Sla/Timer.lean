import Mathlib.Data.List.Sort
import Prequest.Command.Operation

/-!
# SLA timers and their thresholds

A timer measures a ticket or a work order against its policy. The policy has a
list of thresholds, each with the percentage at which it fires; a fired
threshold leaves a row in `sla_threshold_crossings`, which is unique on the
timer, the percentage and the timer type.

* `percentElapsed`, `selectApplicableThresholds`: which thresholds are due.

Times are `timestamptz` values in milliseconds. Identifiers of cases and of work
orders are the keys of one table, which carries their kind.
-/

namespace Prequest.Sla

open Prequest.Lib Prequest.Command

/-! ## Thresholds -/

inductive TimerType where
  | response
  | resolution
  deriving DecidableEq, Repr

inductive ThresholdTimerScope where
  | response
  | resolution
  | both
  deriving DecidableEq, Repr

inductive ThresholdAction where
  | notify
  | escalate
  deriving DecidableEq, Repr

inductive ThresholdTargetType where
  | user
  | team
  | managerOfRequester
  deriving DecidableEq, Repr

/-- An entry of `sla_policies.escalation_thresholds`. -/
structure EscalationThreshold where
  atPercent : Nat
  timerType : ThresholdTimerScope
  action : ThresholdAction
  targetType : ThresholdTargetType
  targetId : Option Nat
  deriving DecidableEq, Repr

/-- `t.timer_type === timerType || t.timer_type === 'both'`. -/
def ThresholdTimerScope.covers (scope : ThresholdTimerScope) (timerType : TimerType) : Bool :=
  match scope, timerType with
  | .both, _ => true
  | .response, .response => true
  | .resolution, .resolution => true
  | _, _ => false

/-- What `validateEscalationThresholds` checks of one entry. -/
def EscalationThreshold.wellFormed (t : EscalationThreshold) : Bool :=
  1 ≤ t.atPercent && t.atPercent ≤ 200 &&
    match t.targetType with
    | .managerOfRequester => t.targetId.isNone
    | _ => t.targetId.isSome

/-- What `validateEscalationThresholds` checks of the list: no two entries for one percentage
and scope. -/
def validThresholds (thresholds : List EscalationThreshold) : Prop :=
  (∀ t ∈ thresholds, t.wellFormed = true) ∧
    (thresholds.map fun t => (t.atPercent, t.timerType)).Nodup

instance (thresholds : List EscalationThreshold) : Decidable (validThresholds thresholds) := by
  unfold validThresholds
  infer_instance

/-- A row of `sla_policies`. -/
structure SlaPolicyRow where
  id : Nat
  name : String
  escalationThresholds : List EscalationThreshold
  valid : validThresholds escalationThresholds
  deriving DecidableEq

instance : Keyed SlaPolicyRow Nat where
  key := SlaPolicyRow.id

/-! ## Timers -/

/-- A row of `sla_timers`. -/
structure SlaTimerRow where
  id : Nat
  ticketId : Nat
  slaPolicyId : Nat
  timerType : TimerType
  startedAt : Int
  dueAt : Int
  breached : Bool := false
  breachedAt : Option Int := none
  paused : Bool := false
  completedAt : Option Int := none
  stoppedAt : Option Int := none
  deriving DecidableEq, Repr

instance : Keyed SlaTimerRow Nat where
  key := SlaTimerRow.id

def SlaTimerRow.running (timer : SlaTimerRow) : Bool :=
  !timer.paused && timer.completedAt.isNone && timer.stoppedAt.isNone

/-- How much of the time of the timer has passed, in percent: 57 of 100 are less than 57. -/
def percentElapsed (timer : SlaTimerRow) (now : Int) : Float :=
  let total := timer.dueAt - timer.startedAt
  if total ≤ 0 then 0
  else Float.ofInt (now - timer.startedAt) / Float.ofInt total * 100

/-- The key on which `sla_threshold_crossings` is unique. -/
structure CrossingKey where
  slaTimerId : Nat
  atPercent : Nat
  timerType : TimerType
  deriving DecidableEq, Repr

section

variable (timer : SlaTimerRow)

def crossingKey (threshold : EscalationThreshold) : CrossingKey where
  slaTimerId := timer.id
  atPercent := threshold.atPercent
  timerType := timer.timerType

def isDue (now : Int) (threshold : EscalationThreshold) : Bool :=
  threshold.timerType.covers timer.timerType &&
    !decide (percentElapsed timer now < Float.ofNat threshold.atPercent)

def selectApplicableThresholds (now : Int)
    (thresholds : List EscalationThreshold) (firedKeys : List CrossingKey) :
    List EscalationThreshold :=
  thresholds.filter fun t => isDue timer now t && !firedKeys.contains (crossingKey timer t)

end

/-- `applicable.sort((a, b) => a.at_percent - b.at_percent)`. -/
def sortByPercent (thresholds : List EscalationThreshold) : List EscalationThreshold :=
  thresholds.insertionSort fun a b => a.atPercent ≤ b.atPercent

/-! ## Crossings, tickets and commands -/

inductive RecordedAction where
  | notify
  | escalate
  | skippedNoManager
  deriving DecidableEq, Repr

def ThresholdAction.recorded : ThresholdAction → RecordedAction
  | .notify => .notify
  | .escalate => .escalate

/-- A row of `sla_threshold_crossings`. -/
structure Crossing where
  crossed : CrossingKey
  ticketId : Nat
  action : RecordedAction
  targetType : ThresholdTargetType
  targetId : Option Nat
  notificationId : Option Nat := none
  deriving DecidableEq, Repr

instance : Keyed Crossing CrossingKey where
  key := Crossing.crossed

inductive EntityKind where
  | case
  | workOrder
  deriving DecidableEq, Repr

/-- A row of `tickets` or of `work_orders`. -/
structure EntityRow where
  kind : EntityKind
  id : Nat
  statusCategory : String := "new"
  assignedTeamId : Option Nat := none
  assignedUserId : Option Nat := none
  assignedVendorId : Option Nat := none
  requesterPersonId : Option Nat := none
  watchers : List Nat := []
  deriving DecidableEq, Repr

instance : Keyed EntityRow (EntityKind × Nat) where
  key := fun r => (r.kind, r.id)

/-- The `reason` of an escalation: `SLA escalation: <policy> at <percent>% of <type>`. -/
structure EscalationReason where
  policyName : String
  atPercent : Nat
  timerType : TimerType
  deriving DecidableEq, Repr

/-- The payload of `set_entity_assignment`. A key that is absent is `none`. -/
structure AssignmentPayload where
  assignedTeamId : Option (Option Nat)
  assignedUserId : Option (Option Nat)
  watchers : Option (List Nat)
  reason : EscalationReason
  deriving DecidableEq, Repr

/-- The payloads of the commands a tick calls. -/
inductive SlaPayload where
  | assignment (payload : AssignmentPayload)
  | watchers (watchers : List Nat)
  deriving DecidableEq, Repr

/-- The idempotency keys of a tick: `sla:escalation:…` and `sla:escalation:…:watchers`. -/
inductive SlaCommandKey where
  | escalation (key : CrossingKey)
  | escalationWatchers (key : CrossingKey)
  deriving DecidableEq, Repr

/-- A row of `routing_decisions` that an escalation writes. -/
structure RoutingDecision where
  entity : EntityKind × Nat
  chosenTeamId : Option Nat
  chosenUserId : Option Nat
  chosenVendorId : Option Nat
  reason : EscalationReason
  deriving DecidableEq, Repr

/-- A `sla_threshold_crossed` event with the notification that goes with it. -/
structure CrossedEvent where
  crossed : CrossingKey
  action : RecordedAction
  targetType : ThresholdTargetType
  targetId : Option Nat
  reassigned : Bool
  deriving DecidableEq, Repr

/-- The tables of one tenant that a tick reads or writes. -/
structure SlaDb where
  timers : Table SlaTimerRow
  policies : Table SlaPolicyRow
  crossings : Table Crossing := Table.empty
  entities : Table EntityRow
  commandOperations : Table (CommandOperation SlaCommandKey SlaPayload Unit) := Table.empty
  routingDecisions : List RoutingDecision := []
  crossedEvents : List CrossedEvent := []
  deriving DecidableEq

/-- What a tick reads of `persons`, `users`, `teams` and `vendors`. Nothing keeps a person from having
two users. -/
structure Directory where
  usersOfPerson : Nat → List Nat
  personOfUser : Nat → Option Nat
  managerOf : Nat → Option Nat
  teamInTenant : Nat → Bool
  userInTenant : Nat → Bool
  vendorInTenant : Nat → Bool
  /-- The person is active, not anonymized, and has not left. -/
  activePerson : Nat → Bool

/-- `validate_assignees_in_tenant`. -/
def Directory.assigneesInTenant (dir : Directory) (team user vendor : Option Nat) : Bool :=
  team.all dir.teamInTenant && user.all dir.userInTenant && vendor.all dir.vendorInTenant

/-- The check of a list of watchers, which may have 200 of them. -/
def Directory.watchersValid (dir : Directory) (watchers : List Nat) : Bool :=
  decide (watchers.eraseDups.length ≤ 200) && watchers.all dir.activePerson

def SlaDb.thresholdsOf (db : SlaDb) (timer : SlaTimerRow) : List EscalationThreshold :=
  match db.policies.get? timer.slaPolicyId with
  | none => []
  | some policy => policy.escalationThresholds

end Prequest.Sla
