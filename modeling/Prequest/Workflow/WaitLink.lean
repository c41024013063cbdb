import Prequest.Lib.Table
import Prequest.Workflow.Engine

/-!
# Spawn links

A row of `workflow_instance_links` says that an instance has spawned a child,
and whether it waits for it. Three parts of the program resolve such a row: the
handler of the booking events, the sweeper of the timeouts, and the cascade of a
cancelled instance. Each does so by one `UPDATE` that asks for an unresolved row.

* `claimForWake`, `claimForTimeout`, `resolveLinkRow`, `unclaim`: the writes.
-/

namespace Prequest.Workflow

open Lib

/-- The values of `resolution_kind`. -/
inductive ResolutionKind where
  | conditionMet
  | timeout
  | parentCancelled
  deriving DecidableEq, Repr

/-- The values of `wait_for`. -/
inductive WaitFor where
  | workflowTerminal
  | entityStatus
  | either
  deriving DecidableEq, Repr

inductive EntityKind where
  | case'
  | workOrder
  | booking
  deriving DecidableEq, Repr

/-- A row of `workflow_instance_links`. -/
structure LinkRow where
  id : Nat
  parentInstanceId : Nat
  childInstanceId : Option Nat := none
  childEntityKind : EntityKind := .booking
  childEntityId : Nat := 0
  /-- `spawn_mode = 'wait'`. -/
  waits : Bool := true
  waitFor : Option WaitFor := some .entityStatus
  entityTerminalStatuses : Option (List String) := none
  waitTimeoutAt : Option Nat := none
  onTimeoutBranch : Option String := none
  /-- `on_parent_cancel = 'cancel_child'`. -/
  cancelsChild : Bool := true
  aggregationGroupId : Option Nat := none
  resolvedAt : Option Nat := none
  resolutionKind : Option ResolutionKind := none
  deriving DecidableEq, Repr

instance : Keyed LinkRow Nat := ⟨LinkRow.id⟩

def LinkRow.config (row : LinkRow) : LinkRow := { row with resolvedAt := none, resolutionKind := none }

inductive BookingEventType where
  | created
  | cancelled
  | statusChanged
  deriving DecidableEq, Repr

/-- An event and the part of its payload that a wake looks at. -/
structure BookingEvent where
  type : BookingEventType
  bookingId : Nat
  toStatus : Option String := none
  status : Option String := none
  deriving DecidableEq, Repr

section

variable (event : BookingEvent)

def BookingEvent.newStatus : Option String :=
  match event.type with
  | .created => some "created"
  | .cancelled => some "cancelled"
  | .statusChanged => event.toStatus.or event.status

/-- `isWaitMatch`. -/
def isWaitMatch (link : LinkRow) : Bool :=
  let allowList := link.entityTerminalStatuses.getD []
  match event.newStatus with
  | none => false
  | some newStatus => allowList.isEmpty || allowList.contains newStatus

/-- The `SELECT` of `runWake`, and the two filters after it. -/
def isWakeCandidate (now : Nat) (link : LinkRow) : Bool :=
  (link.childEntityId == event.bookingId && link.waits && link.resolvedAt.isNone &&
    link.aggregationGroupId.isNone &&
    (link.waitFor == some .entityStatus || link.waitFor == some .either)) &&
  !link.waitTimeoutAt.any (· ≤ now) && isWaitMatch event link

end

/-- The `SELECT` of `sweepOnce`. -/
def isSweepCandidate (now : Nat) (link : LinkRow) : Bool :=
  link.resolvedAt.isNone && link.waits && link.aggregationGroupId.isNone &&
    link.waitTimeoutAt.any (· ≤ now)

/-! ## The writes -/

/-- `SET resolved_at, resolution_kind`. -/
def resolveAs (now : Nat) (kind : ResolutionKind) : Table.Assignment LinkRow where
  apply link := { link with resolvedAt := some now, resolutionKind := some kind }
  key_apply _ := rfl

def isWakeClaimable (linkId now : Nat) (link : LinkRow) : Bool :=
  link.id == linkId && link.resolvedAt.isNone && !link.waitTimeoutAt.any (· ≤ now)

/-- The claim of the sweeper: the row is unresolved and its time is up. -/
def isTimeoutClaimable (linkId now : Nat) (link : LinkRow) : Bool :=
  link.id == linkId && link.resolvedAt.isNone && link.waitTimeoutAt.any (· ≤ now)

section

variable (links : Table LinkRow) (linkId now : Nat)

def claimForWake : Table LinkRow :=
  links.update (isWakeClaimable linkId now) (resolveAs now .conditionMet)

def claimForTimeout : Table LinkRow :=
  links.update (isTimeoutClaimable linkId now) (resolveAs now .timeout)

/-- The `UPDATE` of `resolveLinkRow`. -/
def resolveLinkRow : Table LinkRow :=
  links.update (fun link => link.id == linkId && link.resolvedAt.isNone)
    (resolveAs now .parentCancelled)

end

/-- Both resolvers take a claim back by the id of the row alone. -/
def unclaim (links : Table LinkRow) (linkId : Nat) : Table LinkRow :=
  links.update (fun link => link.id == linkId)
    { apply := fun link => { link with resolvedAt := none, resolutionKind := none }
      key_apply := fun _ => rfl }

end Prequest.Workflow
