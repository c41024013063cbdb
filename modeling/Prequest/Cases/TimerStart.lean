import Prequest.Cases.StatusTransition
import Prequest.Cases.TimerPlan
import Prequest.Lib.Table
import Prequest.Outbox.Worker

/-!
# Handlers that start timers

Two event types start the timers of a case. The handler of each reads the case
and its policy, plans a timer for every target of the policy, and calls one
command of the database with the plan.

Error texts are kept up to the values that are printed into them.
-/

namespace Prequest.Cases

open Prequest.Lib Prequest.Sla
open Prequest.Outbox.Worker (HandlerResult)

/-! ## Rows -/

/-- A row of `tickets` or of `work_orders`. -/
structure Entity where
  id : String
  kind : EntityKind
  parentTicketId : Option String := none
  columns : StatusColumns
  slaId : Option String := none
  slaResponseDueAt : Option Int := none
  slaResolutionDueAt : Option Int := none
  deriving DecidableEq, Repr

instance : Keyed Entity String where
  key := Entity.id

/-- A row of `sla_timers`. -/
structure SlaTimer where
  ticketId : String
  slaPolicyId : String
  timerType : TimerType
  targetMinutes : Int
  dueAt : Int
  businessHoursCalendarId : Option String := none
  startedAt : Int
  paused : Bool := false
  recomputePending : Bool := false
  stoppedAt : Option Int := none
  stoppedReason : Option String := none
  completedAt : Option Int := none
  deriving DecidableEq, Repr

/-- The rows of one tenant. Cases and work orders share their identifiers. -/
structure CaseTables where
  entities : Table Entity := Table.empty
  policies : List SlaPolicy := []
  timers : List SlaTimer := []

section

variable (db : CaseTables)

def CaseTables.entity? (kind : EntityKind) (id : String) : Option Entity :=
  (db.entities.get? id).filter fun e => e.kind == kind

/-- A row of `tickets`. -/
def CaseTables.ticket? (id : String) : Option Entity := db.entity? .case id

/-- A row of `sla_policies`. -/
def CaseTables.policy? (id : String) : Option SlaPolicy :=
  db.policies.find? fun p => p.id == id

def CaseTables.childCategories (id : String) : List String :=
  (db.entities.rows.filter fun e => e.kind == .workOrder && e.parentTicketId == some id).map
    fun e => e.columns.statusCategory

/-- `v_open_children`. -/
def CaseTables.openChildren (id : String) : Nat :=
  (db.childCategories id).countP fun category => !isTerminal category

end

def SlaTimer.active (t : SlaTimer) : Bool := t.stoppedAt.isNone && t.completedAt.isNone

def SlaTimer.measures (t : SlaTimer) (ticketId slaPolicyId : String) : Bool :=
  t.ticketId == ticketId && t.slaPolicyId == slaPolicyId

/-- The two rows agree on the columns of `sla_timers_active_unique_idx`. -/
def SlaTimer.sameSlot (t u : SlaTimer) : Bool :=
  u.measures t.ticketId t.slaPolicyId && u.timerType == t.timerType

/-! ## Commands -/

/-- The row that is inserted for an entry of `p_timers`. -/
def TimerPlan.row (plan : TimerPlan) (ticketId slaPolicyId : String) (startedAt : Int) :
    SlaTimer where
  ticketId := ticketId
  slaPolicyId := slaPolicyId
  timerType := plan.timerType
  targetMinutes := plan.targetMinutes
  dueAt := plan.dueAt
  businessHoursCalendarId := plan.businessHoursCalendarId
  startedAt := startedAt

section

variable (timers : List SlaTimer)

/-- `on conflict ... where stopped_at is null and completed_at is null do nothing`. -/
def insertTimer (t : SlaTimer) : List SlaTimer :=
  if timers.any fun u => u.active && t.sameSlot u then timers else timers ++ [t]

/-- The insert of all entries of `p_timers`. -/
def insertTimers (plans : List TimerPlan) (ticketId slaPolicyId : String)
    (startedAt : Int) : List SlaTimer :=
  (plans.map fun plan => plan.row ticketId slaPolicyId startedAt).foldl insertTimer timers

/-- The due date of the active timer of a type. The index admits one. -/
def activeDueAt (ticketId slaPolicyId : String) (timerType : TimerType) :
    Option Int :=
  (timers.find? fun t =>
    t.active && t.measures ticketId slaPolicyId && t.timerType == timerType).map SlaTimer.dueAt

end

/-- The update of a row of `tickets`. -/
def CaseTables.setTicket (db : CaseTables) (id : String) (f : Table.Assignment Entity) :
    CaseTables :=
  { db with entities := db.entities.update (fun e => e.id == id && e.kind == .case) f }

theorem ticket?_setTicket (db : CaseTables) (ticketId : String) (f : Table.Assignment Entity)
    (hkind : ∀ e, (f.apply e).kind = e.kind) (id : String) :
    (db.setTicket ticketId f).ticket? id =
      (db.ticket? id).map fun e => if id = ticketId then f.apply e else e := by
  show ((db.entities.update _ f).get? id).filter _ = _
  rw [Table.get?_update]
  unfold CaseTables.ticket? CaseTables.entity?
  cases hget : db.entities.get? id with
  | none => rfl
  | some e =>
    have hid : e.id = id := (Table.get?_eq_some.mp hget).2
    cases hcase : e.kind == EntityKind.case with
    | false =>
      rw [Option.map_some, Table.updated_of_false (by simp [hcase])]
      simp [Option.filter, hcase]
    | true =>
      by_cases hsame : id = ticketId
      · rw [Option.map_some, Table.updated_of_true (by simp [hcase, hid, hsame])]
        simp [Option.filter, hkind, hcase, hsame]
      · rw [Option.map_some, Table.updated_of_false (by simp [hid, hsame])]
        simp [Option.filter, hcase, hsame]

def checkTimers (command : String) (db : CaseTables) (ticketId slaPolicyId : String)
    (plans : List TimerPlan) : Except String Unit :=
  if plans = [] then .error (command ++ ".timers_required")
  else if (db.policy? slaPolicyId).isNone then
    .error "validate_entity_in_tenant.sla_policy_not_in_tenant"
  else if (db.ticket? ticketId).isNone then .error (command ++ ".ticket_not_found")
  else .ok ()

/-- `start_sla_timers`. -/
def startSlaTimers (db : CaseTables) (ticketId slaPolicyId : String) (plans : List TimerPlan)
    (startedAt : Int) : Except String CaseTables := do
  checkTimers "start_sla_timers" db ticketId slaPolicyId plans
  let timers := insertTimers db.timers plans ticketId slaPolicyId startedAt
  .ok <| { db with timers := timers }.setTicket ticketId
    { apply := fun e =>
        { e with
          slaResponseDueAt :=
            (activeDueAt timers ticketId slaPolicyId .response).or e.slaResponseDueAt
          slaResolutionDueAt :=
            (activeDueAt timers ticketId slaPolicyId .resolution).or e.slaResolutionDueAt }
      key_apply := fun _ => rfl }

def stopTimer (which : SlaTimer → Bool) (now : Int) (reason : Option String) (ticketId : String)
    (t : SlaTimer) : SlaTimer :=
  if t.ticketId == ticketId && which t && t.active then
    { t with stoppedAt := some now, stoppedReason := reason }
  else t

def stopTimersWhere (which : SlaTimer → Bool) (now : Int) (reason : Option String)
    (ticketId : String) (timers : List SlaTimer) : List SlaTimer :=
  timers.map (stopTimer which now reason ticketId)

/-- `repoint_sla_timer`. A ticket that has an active timer under the policy counts as repointed. -/
def repointSlaTimer (now : Int) (db : CaseTables) (ticketId slaPolicyId : String)
    (plans : List TimerPlan) (reason : String) (startedAt : Int) : Except String CaseTables := do
  checkTimers "repoint_sla_timer" db ticketId slaPolicyId plans
  if db.timers.any fun t => t.measures ticketId slaPolicyId && t.active then .ok db
  else
    let stopped := stopTimersWhere (fun t => t.slaPolicyId != slaPolicyId) now (some reason)
      ticketId db.timers
    let timers := insertTimers stopped plans ticketId slaPolicyId startedAt
    .ok <| { db with timers := timers }.setTicket ticketId
      { apply := fun e =>
          { e with
            slaResponseDueAt := activeDueAt timers ticketId slaPolicyId .response
            slaResolutionDueAt := activeDueAt timers ticketId slaPolicyId .resolution }
        key_apply := fun _ => rfl }

/-! ## Events -/

/-- The payload of the events about timers. A key that a producer leaves out is `none`; a
`started_at` that is no instant is `some none`. -/
structure TimerPayload where
  tenantId : Option String := none
  ticketId : Option String := none
  slaPolicyId : Option String := none
  startedAt : Option (Option Int) := none
  entityId : Option String := none
  entityKind : Option EntityKind := none
  action : Option TimerAction := none
  waitingReason : Option String := none
  previousStatus : Option String := none
  newStatus : Option String := none
  newStatusCategory : Option String := none
  deriving DecidableEq, Repr

/-- An event as a handler receives it. -/
structure TimerEvent where
  tenantId : String
  payload : TimerPayload
  deriving DecidableEq, Repr

/-! ## Handlers -/

structure HandlerEnv where
  tenantId : String
  addBusinessMinutes : AddBusinessMinutes

/-- A calendar that is always open, with times in minutes. -/
def clockMinutes : HandlerEnv where
  tenantId := "tenant"
  addBusinessMinutes _ start minutes := start + minutes

/-- How a handler goes on once it has read the case and its policy. -/
inductive Prepared where
  | ended (result : HandlerResult)
  | call (ticketId slaPolicyId : String) (plans : List TimerPlan) (startedAt : Int)
  deriving DecidableEq, Repr

/-- `timers`: an entry for each target that is positive. -/
def SlaPolicy.positiveTimers (add : AddBusinessMinutes) (policy : SlaPolicy) (startedAt : Int) :
    List TimerPlan :=
  planTimer add policy startedAt .response
      (policy.responseTimeMinutes.filter fun m => decide (0 < m)) ++
    planTimer add policy startedAt .resolution
      (policy.resolutionTimeMinutes.filter fun m => decide (0 < m))

/-- The handler up to its command. Both handlers read the same rows and differ in the name that
their errors start with. -/
def prepare (name : String) (add : AddBusinessMinutes) (now : Int) (db : CaseTables)
    (event : TimerEvent) : Prepared :=
  if event.payload.tenantId ≠ some event.tenantId then
    .ended (.deadLetterError (name ++ ".tenant_mismatch"))
  else match event.payload.ticketId with
    -- `.eq('id', undefined)` is no uuid, so that the read itself fails
    | none => .ended (.threw (name ++ ".ticket_read_failed"))
    | some ticketId =>
        match (db.ticket? ticketId).bind Entity.slaId with
        -- `ticket_not_found` and `sla_cleared`
        | none => .ended .ok
        | some current =>
            -- `stale_event`
            if some current ≠ event.payload.slaPolicyId then .ended .ok
            else match db.policy? current with
              | none => .ended (.deadLetterError (name ++ ".policy_not_found_in_tenant"))
              | some policy =>
                  match event.payload.startedAt.getD (some now) with
                  | none => .ended (.deadLetterError (name ++ ".started_at_invalid"))
                  | some startedAt =>
                      if policy.positiveTimers add startedAt = [] then
                        .ended (.deadLetterError (name ++ ".policy_has_no_targets"))
                      else .call ticketId current (policy.positiveTimers add startedAt) startedAt

/-- `classifyRpcError`: the errors that a repeated call meets again. -/
def classifyRpcError (command message : String) : HandlerResult :=
  if message ∈ [command ++ ".ticket_not_found", command ++ ".timers_required",
      command ++ ".unknown_timer_type", "validate_entity_in_tenant.sla_policy_not_in_tenant"] then
    .deadLetterError (command ++ " terminal error: " ++ message)
  else .threw (command ++ " transient error: " ++ message)

def settleCall (command : String) (db : CaseTables) :
    Except String CaseTables → CaseTables × HandlerResult
  | .ok db' => (db', .ok)
  | .error message => (db, classifyRpcError command message)

/-- `SlaTimerHandler.handle`, registered for `sla.timer_recompute_required`. -/
def handleRecompute (add : AddBusinessMinutes) (now : Int) (db : CaseTables) (event : TimerEvent) :
    CaseTables × HandlerResult :=
  match prepare "sla_timer" add now db event with
  | .ended result => (db, result)
  | .call ticketId slaPolicyId plans startedAt =>
      settleCall "start_sla_timers" db (startSlaTimers db ticketId slaPolicyId plans startedAt)

theorem handleRecompute_no_tenant {add : AddBusinessMinutes} {now : Int} {db : CaseTables}
    {event : TimerEvent} (h : event.payload.tenantId = none) :
    handleRecompute add now db event = (db, .deadLetterError "sla_timer.tenant_mismatch") := by
  have hne : event.payload.tenantId ≠ some event.tenantId := by simp [h]
  unfold handleRecompute prepare
  rw [if_pos hne]
  rfl

end Prequest.Cases
