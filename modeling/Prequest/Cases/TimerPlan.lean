import Prequest.Sla.Timer

/-!
# The timers of a policy

A policy sets a target for the response and one for the resolution. The timers
of an entity are planned before the command that installs them is called: each
target that is set gives a timer that is due when that much business time has
passed.
-/

namespace Prequest.Cases

open Prequest.Sla

/-- A row of `sla_policies`. -/
structure SlaPolicy where
  id : String
  responseTimeMinutes : Option Int := none
  resolutionTimeMinutes : Option Int := none
  businessHoursCalendarId : Option String := none
  pauseOnWaitingReasons : Option (List String) := some ["requester", "vendor", "scheduled_work"]
  deriving DecidableEq, Repr

/-- `addBusinessMinutes` with the calendar of the given identifier. -/
abbrev AddBusinessMinutes := Option String → Int → Int → Int

/-- An entry of `timers[]`. -/
structure TimerPlan where
  timerType : TimerType
  targetMinutes : Int
  dueAt : Int
  businessHoursCalendarId : Option String
  deriving DecidableEq, Repr

/-- `if (minutes) timers.push(...)`. -/
def planTimer (add : AddBusinessMinutes) (policy : SlaPolicy) (start : Int) (timerType : TimerType)
    (minutes : Option Int) : List TimerPlan :=
  match minutes with
  | none => []
  | some m =>
      if m = 0 then []
      else
        [{ timerType := timerType
           targetMinutes := m
           dueAt := add policy.businessHoursCalendarId start m
           businessHoursCalendarId := policy.businessHoursCalendarId }]

/-- The timers of both targets, in the order of the source. -/
def SlaPolicy.timers (add : AddBusinessMinutes) (policy : SlaPolicy) (start : Int) :
    List TimerPlan :=
  planTimer add policy start .response policy.responseTimeMinutes ++
    planTimer add policy start .resolution policy.resolutionTimeMinutes

/-- A target counts when it is positive. -/
def SlaPolicy.hasTarget (policy : SlaPolicy) : Bool :=
  policy.responseTimeMinutes.any (fun m => decide (0 < m)) ||
    policy.resolutionTimeMinutes.any (fun m => decide (0 < m))

/-- `SlaService.buildTimersForRpc`. -/
def buildTimersForRpc (policies : List SlaPolicy) (add : AddBusinessMinutes) (now : Int)
    (slaPolicyId : String) : Except String (List TimerPlan) :=
  match policies.find? fun p => p.id == slaPolicyId with
  | none => .error "sla.policy_not_found"
  | some policy =>
      if policy.hasTarget then .ok (policy.timers add now)
      else .error "sla.policy_has_no_targets"

end Prequest.Cases
