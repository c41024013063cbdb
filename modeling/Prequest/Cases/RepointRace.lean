import Prequest.Cases.Reclassify
import Prequest.Lib.Run

/-!
# Timers after reclassifications

The handlers that start timers read the case in one query and call their command
in another. Between the two, the case can be reclassified, timers can complete,
and other handlers can run; an event can be delivered again, because a process
stopped or because what it reported was lost.

* `timersLaw_of_orderly`: the law for every run of orderly steps.
-/

namespace Prequest.Cases

open Prequest.Lib Prequest.Sla Prequest.Outbox Prequest.Command
open Prequest.Outbox.Worker (HandlerResult)

/-! ## The interleaving -/

/-- A handler between its reads and its call. -/
structure Delivery where
  event : Event TimerEventKey TimerEventPayload
  ticketId : String
  slaPolicyId : String
  plans : List TimerPlan
  startedAt : Int
  deriving DecidableEq, Repr

structure RepointWorld (ι : Type) where
  db : ReclassifyDb
  delivery : ι → Option Delivery := fun _ => none
  /-- How often an event has been given to a handler. -/
  deliveries : TimerEventKey → Nat := fun _ => 0
  /-- The event is marked as processed or as dead. -/
  handled : TimerEventKey → Bool := fun _ => false

inductive RepointAction (ι : Type) where
  | reclassify (dir : ReclassifyDirectory) (c : ReclassifyCall)
  /-- `completeTimers`. -/
  | complete (ticketId : String) (timerType : Option TimerType) (now : Int)
  /-- A handler is given an event, and reads the case and its policy. -/
  | read (i : ι) (key : TimerEventKey) (now : Int)
  /-- The handler calls its command. What it reports may be lost. -/
  | call (i : ι) (now : Int) (reported : Bool)
  /-- The process of the handler stops. -/
  | stop (i : ι)

def TimerEventPayload.fields : TimerEventPayload → TimerPayload
  | .recompute payload => payload
  | .repoint payload => payload

def TimerEventPayload.handlerName : TimerEventPayload → String
  | .recompute _ => "sla_timer"
  | .repoint _ => "sla_timer_repoint"

def Delivery.perform (d : Delivery) (now : Int) (db : CaseTables) : CaseTables × HandlerResult :=
  match d.event.payload with
  | .recompute _ =>
      settleCall "start_sla_timers" db
        (startSlaTimers db d.ticketId d.slaPolicyId d.plans d.startedAt)
  | .repoint _ =>
      settleCall "repoint_sla_timer" db
        (repointSlaTimer now db d.ticketId d.slaPolicyId d.plans "reclassified" d.startedAt)

/-- `completed_at` is set on an active timer of the ticket, of one type or of any. -/
def completeTimer (now : Int) (ticketId : String) (timerType : Option TimerType) (t : SlaTimer) :
    SlaTimer :=
  if t.ticketId == ticketId && t.active && timerType.all (fun type => t.timerType == type) then
    { t with completedAt := some now }
  else t

/-- `SlaService.completeTimers`. -/
def completeTimers (now : Int) (ticketId : String) (timerType : Option TimerType)
    (timers : List SlaTimer) : List SlaTimer :=
  timers.map (completeTimer now ticketId timerType)

/-- The handler ends in a way that leaves the event to be delivered again. -/
def isRetried : HandlerResult → Bool
  | .threw _ => true
  | _ => false

section Step

variable {ι : Type} [DecidableEq ι] (env : HandlerEnv)

/-- The other tables of the database stay. -/
def RepointWorld.setTables (w : RepointWorld ι) (tables : CaseTables) : RepointWorld ι :=
  { w with db := { w.db with tables := tables } }

def RepointWorld.mark (w : RepointWorld ι) (key : TimerEventKey) : RepointWorld ι :=
  { w with handled := fun k => if k = key then true else w.handled k }

def RepointWorld.setDelivery (w : RepointWorld ι) (i : ι) (d : Option Delivery) : RepointWorld ι :=
  { w with delivery := fun j => if j = i then d else w.delivery j }

/-- The event is given to a handler once more. -/
def RepointWorld.deliver (w : RepointWorld ι) (key : TimerEventKey) : RepointWorld ι :=
  { w with deliveries := fun k => if k = key then w.deliveries k + 1 else w.deliveries k }

/-- Handler `i` has read what it needs for the event. -/
def RepointWorld.afterRead (w : RepointWorld ι) (i : ι)
    (event : Event TimerEventKey TimerEventPayload) : Prepared → RepointWorld ι
  | .ended result =>
      if isRetried result then w.deliver event.idempotencyKey
      else (w.deliver event.idempotencyKey).mark event.idempotencyKey
  | .call ticketId slaPolicyId plans startedAt =>
      (w.deliver event.idempotencyKey).setDelivery i
        (some
          { event := event, ticketId := ticketId, slaPolicyId := slaPolicyId
            plans := plans, startedAt := startedAt })

/-- What handler `i` does with the event. -/
def prepareEvent (now : Int) (db : CaseTables) (event : Event TimerEventKey TimerEventPayload) :
    Prepared :=
  prepare event.payload.handlerName env.addBusinessMinutes now db
    { tenantId := env.tenantId, payload := event.payload.fields }

def repointStep (w : RepointWorld ι) : RepointAction ι → RepointWorld ι
  | .reclassify dir c =>
      match reclassifyTicket env.tenantId dir w.db c with
      | .ok db => { w with db := db }
      | .error _ => w
  | .complete ticketId timerType now =>
      w.setTables
        { w.db.tables with timers := completeTimers now ticketId timerType w.db.tables.timers }
  | .read i key now =>
      match w.delivery i, w.db.events.get? key with
      | none, some event => w.afterRead i event (prepareEvent env now w.db.tables event)
      | _, _ => w
  | .call i now reported =>
      match w.delivery i with
      | none => w
      | some d =>
          let performed := d.perform now w.db.tables
          let called := (w.setTables performed.1).setDelivery i none
          if reported && !isRetried performed.2 then called.mark d.event.idempotencyKey else called
  | .stop i => w.setDelivery i none

end Step

/-! ## The law -/

/-- The timers of a ticket that are neither stopped nor completed. -/
def activeOf (timers : List SlaTimer) (id : String) : List SlaTimer :=
  timers.filter fun t => t.ticketId == id && t.active

def Converged (db : CaseTables) : Prop :=
  ∀ ticket ∈ db.entities.rows, ticket.kind = .case →
    (∀ t ∈ activeOf db.timers ticket.id, ticket.slaId = some t.slaPolicyId) ∧
      (activeOf db.timers ticket.id).Pairwise fun t u => t.timerType ≠ u.timerType

section Law

variable {ι : Type} [DecidableEq ι] (env : HandlerEnv)

def AllHandled (w : RepointWorld ι) : Prop :=
  (∀ i, w.delivery i = none) ∧
    ∀ event ∈ w.db.events.rows, w.handled event.idempotencyKey = true

/-- A call for an event that has been delivered before starts no timer where one has completed.
The rows that a command inserts come after those that were there. -/
def NoRestart (w : RepointWorld ι) : RepointAction ι → Prop
  | .call i now _ =>
      ∀ d, w.delivery i = some d → 2 ≤ w.deliveries d.event.idempotencyKey →
        ∀ t ∈ (d.perform now w.db.tables).1.timers.drop w.db.tables.timers.length,
          ∀ u ∈ w.db.tables.timers, u.completedAt.isSome = true → t.sameSlot u = false
  | _ => True

/-- Whenever all events are handled the timers have converged, and no step restarts a timer. -/
def TimersLaw (w : RepointWorld ι) (actions : List (RepointAction ι)) : Prop :=
  (∀ pre post, actions = pre ++ post → AllHandled (run (repointStep env) w pre) →
      Converged (run (repointStep env) w pre).db.tables) ∧
    ∀ pre a post, actions = pre ++ a :: post → NoRestart (run (repointStep env) w pre) a

/-! ## The condition -/

def Delivery.opens (d : Delivery) (timers : List SlaTimer) (plan : TimerPlan) : Prop :=
  ∀ u ∈ timers, u.active = true →
    (plan.row d.ticketId d.slaPolicyId d.startedAt).sameSlot u = false

def Delivery.Writes (d : Delivery) (timers : List SlaTimer) : Prop :=
  match d.event.payload with
  | .recompute _ => ∃ plan ∈ d.plans, d.opens timers plan
  | .repoint _ =>
      ∀ t ∈ activeOf timers d.ticketId, t.slaPolicyId ≠ d.slaPolicyId

/-- The case is still under the policy that the handler has read, a start meets no active timer of
another policy, and a redelivered event opens no slot in which a timer has completed. -/
structure OrderlyCall (w : RepointWorld ι) (d : Delivery) : Prop where
  current : ∀ ticket, w.db.tables.ticket? d.ticketId = some ticket →
    ticket.slaId = some d.slaPolicyId
  alone : ∀ payload, d.event.payload = .recompute payload →
    ∀ t ∈ activeOf w.db.tables.timers d.ticketId, t.slaPolicyId = d.slaPolicyId
  noRestart : 2 ≤ w.deliveries d.event.idempotencyKey →
    ∀ plan ∈ d.plans, d.opens w.db.tables.timers plan →
      ∀ u ∈ w.db.tables.timers, u.completedAt.isSome = true →
        (plan.row d.ticketId d.slaPolicyId d.startedAt).sameSlot u = false

/-- A reclassification of a case with active timers to another policy finds a target in it. -/
def OrderlyReclassify (w : RepointWorld ι) (dir : ReclassifyDirectory) (c : ReclassifyCall) : Prop :=
  ∀ ticket newRequestTypeId derived, w.db.tables.ticket? c.ticketId = some ticket →
    checkReclassify dir ticket (w.db.scope ticket.id) c.input newRequestTypeId = .ok derived →
      ticket.slaId ≠ derived.slaPolicyId →
        ∀ policy, derived.slaPolicyId.bind w.db.tables.policy? = some policy →
          policy.hasTarget = true ∨ activeOf w.db.tables.timers ticket.id = []

/-- The condition on a step. A call that writes nothing is orderly. -/
def Orderly (w : RepointWorld ι) : RepointAction ι → Prop
  | .reclassify dir c => OrderlyReclassify w dir c
  | .call i _ _ => ∀ d, w.delivery i = some d → d.Writes w.db.tables.timers → OrderlyCall w d
  | _ => True

end Law

/-! ## Timers -/

/-- `sla_timers_active_unique_idx`. -/
def UniqueActive (timers : List SlaTimer) : Prop :=
  (timers.filter SlaTimer.active).Pairwise fun t u => t.sameSlot u = false

variable {id : String} {plans : List TimerPlan} {t : SlaTimer}

theorem mem_activeOf {timers : List SlaTimer} :
    t ∈ activeOf timers id ↔ t ∈ timers ∧ t.ticketId = id ∧ t.active = true := by
  simp [activeOf]

theorem activeOf_append (timers more : List SlaTimer) (id : String) :
    activeOf (timers ++ more) id = activeOf timers id ++ activeOf more id :=
  List.filter_append ..

section Map

variable {f : SlaTimer → SlaTimer} (hf : ∀ t, f t = t ∨ (f t).active = false)

include hf in
theorem filter_active_map (timers : List SlaTimer) :
    (timers.map f).filter SlaTimer.active =
      (timers.filter SlaTimer.active).filter fun t => (f t).active := by
  induction timers with
  | nil => rfl
  | cons t timers ih =>
    rcases hf t with hsame | hended
    · cases hactive : t.active <;> simp [hsame, hactive, ih]
    · cases hactive : t.active <;> simp [hended, hactive, ih]

include hf in
theorem UniqueActive.map {timers : List SlaTimer} (h : UniqueActive timers) :
    UniqueActive (timers.map f) := by
  unfold UniqueActive
  rw [filter_active_map hf]
  exact h.filter _

include hf in
theorem activeOf_map (timers : List SlaTimer) (id : String) :
    activeOf (timers.map f) id = (activeOf timers id).filter fun t => (f t).active := by
  have hboth : ∀ ts : List SlaTimer,
      activeOf ts id = (ts.filter SlaTimer.active).filter fun t => t.ticketId == id := by
    intro ts
    rw [List.filter_filter]
    rfl
  rw [hboth, filter_active_map hf, hboth, List.filter_comm]

end Map

section Stop

variable {which : SlaTimer → Bool} {now : Int} {reason : Option String} {ticketId : String}

theorem stopTimer_ends (t : SlaTimer) :
    stopTimer which now reason ticketId t = t ∨
      (stopTimer which now reason ticketId t).active = false := by
  unfold stopTimer
  split_ifs
  · right
    rfl
  · left
    rfl

theorem activeOf_stopTimersWhere (timers : List SlaTimer) (id : String) :
    activeOf (stopTimersWhere which now reason ticketId timers) id =
      (activeOf timers id).filter fun t => !(t.ticketId == ticketId && which t) := by
  unfold stopTimersWhere
  rw [activeOf_map stopTimer_ends]
  apply List.filter_congr
  intro t ht
  have hactive := (mem_activeOf.mp ht).2.2
  unfold stopTimer
  cases hwhich : t.ticketId == ticketId && which t with
  | true =>
    rw [hactive, Bool.and_true, if_pos rfl]
    rfl
  | false =>
    rw [Bool.false_and, if_neg Bool.false_ne_true, hactive]
    rfl

end Stop

section Complete

variable {now : Int} {ticketId : String} {timerType : Option TimerType}

theorem completeTimer_ends (t : SlaTimer) :
    completeTimer now ticketId timerType t = t ∨
      (completeTimer now ticketId timerType t).active = false := by
  unfold completeTimer
  split_ifs
  · right
    simp [SlaTimer.active]
  · left
    rfl

theorem mem_activeOf_completeTimers {timers : List SlaTimer}
    (h : t ∈ activeOf (completeTimers now ticketId timerType timers) id) :
    t ∈ activeOf timers id := by
  unfold completeTimers at h
  rw [activeOf_map completeTimer_ends] at h
  exact (List.mem_filter.mp h).1

end Complete

theorem SlaTimer.sameSlot_iff {t u : SlaTimer} :
    t.sameSlot u = true ↔
      t.ticketId = u.ticketId ∧ t.slaPolicyId = u.slaPolicyId ∧ t.timerType = u.timerType := by
  simp only [SlaTimer.sameSlot, SlaTimer.measures, Bool.and_eq_true, beq_iff_eq, and_assoc]
  rw [eq_comm, eq_comm (a := u.slaPolicyId), eq_comm (a := u.timerType)]

theorem SlaTimer.sameSlot_comm (t u : SlaTimer) : t.sameSlot u = u.sameSlot t := by
  rw [Bool.eq_iff_iff, sameSlot_iff, sameSlot_iff]
  rw [eq_comm, eq_comm (a := t.slaPolicyId), eq_comm (a := t.timerType)]

section Insert

variable {ticketId slaPolicyId : String} {startedAt : Int} {timers new : List SlaTimer}

/-- An insert adds rows at the end, each in a slot that had no active timer. -/
structure Inserted (timers new : List SlaTimer) (plans : List TimerPlan)
    (ticketId slaPolicyId : String) (startedAt : Int) : Prop where
  planned : ∀ t ∈ new, ∃ plan ∈ plans, t = plan.row ticketId slaPolicyId startedAt
  free : ∀ t ∈ new, ∀ u ∈ timers, u.active = true → t.sameSlot u = false
  unique : UniqueActive timers → UniqueActive (timers ++ new)

theorem insertTimers_spec (timers : List SlaTimer) (plans : List TimerPlan)
    (ticketId slaPolicyId : String) (startedAt : Int) :
    ∃ new, insertTimers timers plans ticketId slaPolicyId startedAt = timers ++ new ∧
      Inserted timers new plans ticketId slaPolicyId startedAt := by
  induction plans generalizing timers with
  | nil =>
    refine ⟨[], (List.append_nil timers).symm, ?_, ?_, ?_⟩
    · intro t ht
      cases ht
    · intro t ht
      cases ht
    · intro h
      rw [List.append_nil]
      exact h
  | cons plan plans ih =>
    have hstep : insertTimers timers (plan :: plans) ticketId slaPolicyId startedAt =
        insertTimers (insertTimer timers (plan.row ticketId slaPolicyId startedAt)) plans
          ticketId slaPolicyId startedAt := rfl
    rw [hstep]
    unfold insertTimer
    split_ifs with htaken
    · obtain ⟨new, hnew, hspec⟩ := ih timers
      refine ⟨new, hnew, ?_, hspec.free, hspec.unique⟩
      intro t ht
      obtain ⟨p, hp, rfl⟩ := hspec.planned t ht
      exact ⟨p, List.mem_cons_of_mem plan hp, rfl⟩
    · have hfree : ∀ u ∈ timers, u.active = true →
          (plan.row ticketId slaPolicyId startedAt).sameSlot u = false := by
        intro u hu hactive
        by_contra hsame
        apply htaken
        apply List.any_eq_true.mpr
        exact ⟨u, hu, by simpa [hactive] using hsame⟩
      obtain ⟨new, hnew, hspec⟩ := ih (timers ++ [plan.row ticketId slaPolicyId startedAt])
      refine ⟨plan.row ticketId slaPolicyId startedAt :: new, ?_, ?_, ?_, ?_⟩
      · rw [hnew, List.append_assoc]
        rfl
      · intro t ht
        rcases List.mem_cons.mp ht with rfl | ht
        · exact ⟨plan, List.mem_cons_self, rfl⟩
        · obtain ⟨p, hp, rfl⟩ := hspec.planned t ht
          exact ⟨p, List.mem_cons_of_mem plan hp, rfl⟩
      · intro t ht u hu hactive
        rcases List.mem_cons.mp ht with rfl | ht
        · exact hfree u hu hactive
        · exact hspec.free t ht u (List.mem_append_left _ hu) hactive
      · intro hunique
        have hone : UniqueActive (timers ++ [plan.row ticketId slaPolicyId startedAt]) := by
          unfold UniqueActive
          rw [List.filter_append]
          apply List.pairwise_append.mpr
          refine ⟨hunique, List.Pairwise.filter _ (List.pairwise_singleton _ _), ?_⟩
          intro u hu t ht
          obtain rfl := List.mem_singleton.mp (List.mem_filter.mp ht).1
          obtain ⟨hu, hactive⟩ := List.mem_filter.mp hu
          rw [SlaTimer.sameSlot_comm]
          exact hfree u hu hactive
        have hall := hspec.unique hone
        rw [List.append_assoc] at hall
        exact hall

theorem Inserted.measures (h : Inserted timers new plans ticketId slaPolicyId startedAt)
    (ht : t ∈ new) : t.ticketId = ticketId ∧ t.slaPolicyId = slaPolicyId := by
  obtain ⟨plan, _, rfl⟩ := h.planned t ht
  exact ⟨rfl, rfl⟩

theorem Inserted.activeOf_ne (h : Inserted timers new plans ticketId slaPolicyId startedAt)
    (hne : id ≠ ticketId) : activeOf (timers ++ new) id = activeOf timers id := by
  have hnone : activeOf new id = [] := by
    apply List.filter_eq_nil_iff.mpr
    intro t ht
    have hid := (h.measures ht).1
    simp [hid, Ne.symm hne]
  rw [activeOf_append, hnone, List.append_nil]

end Insert

/-! ## Commands -/

/-- The two states have the same policies, and the same cases under the same policies. -/
structure SameCases (db db' : CaseTables) : Prop where
  policies : db'.policies = db.policies
  slaOf : ∀ id, (db'.ticket? id).map Entity.slaId = (db.ticket? id).map Entity.slaId

theorem SameCases.refl (db : CaseTables) : SameCases db db := ⟨rfl, fun _ => rfl⟩

theorem sameCases_setTicket (db : CaseTables) (timers : List SlaTimer) (ticketId : String)
    (f : Table.Assignment Entity) (hkind : ∀ e, (f.apply e).kind = e.kind)
    (hsla : ∀ e, (f.apply e).slaId = e.slaId) :
    SameCases db ({ db with timers := timers }.setTicket ticketId f) := by
  refine ⟨rfl, ?_⟩
  intro id
  rw [ticket?_setTicket _ ticketId f hkind, Option.map_map]
  show _ = (db.ticket? id).map Entity.slaId
  congr 1
  funext e
  show (if id = ticketId then f.apply e else e).slaId = e.slaId
  split_ifs
  · exact hsla e
  · rfl

/-- What the call of a handler does to the tables. A repoint that its command accepts and that
writes nothing has met an active timer of its policy. -/
inductive Performed (d : Delivery) (now : Int) (db : CaseTables) : CaseTables → Prop where
  | refused (hplans : d.plans = [] ∨ db.policy? d.slaPolicyId = none ∨ db.ticket? d.ticketId = none) :
      Performed d now db db
  | already {payload : TimerPayload} (hevent : d.event.payload = .repoint payload)
      (hsome : ∃ t ∈ activeOf db.timers d.ticketId, t.slaPolicyId = d.slaPolicyId) :
      Performed d now db db
  | started {db' : CaseTables} {payload : TimerPayload} (hcases : SameCases db db')
      (hevent : d.event.payload = .recompute payload)
      (htimers : db'.timers =
        insertTimers db.timers d.plans d.ticketId d.slaPolicyId d.startedAt) :
      Performed d now db db'
  | repointed {db' : CaseTables} {payload : TimerPayload} (hcases : SameCases db db')
      (hevent : d.event.payload = .repoint payload)
      (hnone : ∀ t ∈ activeOf db.timers d.ticketId, t.slaPolicyId ≠ d.slaPolicyId)
      (htimers : db'.timers =
        insertTimers
          (stopTimersWhere (fun t => t.slaPolicyId != d.slaPolicyId) now (some "reclassified")
            d.ticketId db.timers)
          d.plans d.ticketId d.slaPolicyId d.startedAt) :
      Performed d now db db'

theorem checkTimers_cases (command : String) (db : CaseTables) (ticketId slaPolicyId : String)
    (plans : List TimerPlan) :
    checkTimers command db ticketId slaPolicyId plans = .ok () ∨
      (∃ message, checkTimers command db ticketId slaPolicyId plans = .error message) ∧
        (plans = [] ∨ db.policy? slaPolicyId = none ∨ db.ticket? ticketId = none) := by
  unfold checkTimers
  split_ifs with hplans hpolicy hticket
  · right
    exact ⟨⟨_, rfl⟩, .inl hplans⟩
  · right
    exact ⟨⟨_, rfl⟩, .inr (.inl (Option.isNone_iff_eq_none.mp hpolicy))⟩
  · right
    exact ⟨⟨_, rfl⟩, .inr (.inr (Option.isNone_iff_eq_none.mp hticket))⟩
  · left
    rfl

theorem perform_spec (d : Delivery) (now : Int) (db : CaseTables) :
    Performed d now db (d.perform now db).1 := by
  unfold Delivery.perform
  cases hevent : d.event.payload with
  | recompute payload =>
    show Performed d now db (settleCall _ db (startSlaTimers db _ _ _ _)).1
    unfold startSlaTimers
    rcases checkTimers_cases "start_sla_timers" db d.ticketId d.slaPolicyId d.plans with
      hok | ⟨⟨message, herror⟩, hwhy⟩
    · rw [hok]
      refine .started ?_ hevent rfl
      apply sameCases_setTicket
      · intro e
        rfl
      · intro e
        rfl
    · rw [herror]
      exact .refused hwhy
  | repoint payload =>
    show Performed d now db (settleCall _ db (repointSlaTimer now db _ _ _ _ _)).1
    unfold repointSlaTimer
    rcases checkTimers_cases "repoint_sla_timer" db d.ticketId d.slaPolicyId d.plans with
      hok | ⟨⟨message, herror⟩, hwhy⟩
    · rw [hok]
      by_cases halready : (db.timers.any fun t =>
          t.measures d.ticketId d.slaPolicyId && t.active) = true
      · obtain ⟨t, ht, hboth⟩ := List.any_eq_true.mp halready
        simp only [SlaTimer.measures, Bool.and_eq_true, beq_iff_eq] at hboth
        have hsome : ∃ t ∈ activeOf db.timers d.ticketId, t.slaPolicyId = d.slaPolicyId :=
          ⟨t, mem_activeOf.mpr ⟨ht, hboth.1.1, hboth.2⟩, hboth.1.2⟩
        simp only [bind, Except.bind, halready, if_true, settleCall]
        exact .already hevent hsome
      · have hnone : ∀ t ∈ activeOf db.timers d.ticketId, t.slaPolicyId ≠ d.slaPolicyId := by
          intro t ht hsame
          obtain ⟨ht, hid, hactive⟩ := mem_activeOf.mp ht
          apply halready
          apply List.any_eq_true.mpr
          exact ⟨t, ht, by simp [SlaTimer.measures, hid, hsame, hactive]⟩
        simp only [bind, Except.bind, halready, settleCall]
        refine .repointed ?_ hevent hnone rfl
        apply sameCases_setTicket
        · intro e
          rfl
        · intro e
          rfl
    · rw [herror]
      exact .refused hwhy

variable {d : Delivery} {now : Int} {slaId : Option String} {key : TimerEventKey}
  {db db' : CaseTables}

theorem Performed.sameCases (h : Performed d now db db') : SameCases db db' := by
  cases h with
  | refused _ => exact .refl db
  | already _ _ => exact .refl db
  | started hcases _ _ => exact hcases
  | repointed hcases _ _ _ => exact hcases

theorem stopTimersWhere_false (now : Int) (reason : Option String) (ticketId : String)
    (timers : List SlaTimer) : stopTimersWhere (fun _ => false) now reason ticketId timers = timers := by
  have hid : stopTimer (fun _ => false) now reason ticketId = fun t => t := by
    funext t
    simp [stopTimer]
  unfold stopTimersWhere
  rw [hid, List.map_id']

/-- The timers after a call that writes: some are stopped, none of them of the policy of the call,
and rows are added in free slots. -/
structure Written (d : Delivery) (now : Int) (timers timers' : List SlaTimer)
    (which : SlaTimer → Bool) (new : List SlaTimer) : Prop where
  eq : timers' = stopTimersWhere which now (some "reclassified") d.ticketId timers ++ new
  inserted : Inserted (stopTimersWhere which now (some "reclassified") d.ticketId timers) new
    d.plans d.ticketId d.slaPolicyId d.startedAt
  keepsOwn : ∀ t, t.slaPolicyId = d.slaPolicyId → which t = false
  stopsOthers : ∀ payload, d.event.payload = .repoint payload →
    ∀ t, t.slaPolicyId ≠ d.slaPolicyId → which t = true

theorem written_of_repoint {timers timers' : List SlaTimer} (htimers : timers' =
      insertTimers
        (stopTimersWhere (fun t => t.slaPolicyId != d.slaPolicyId) now (some "reclassified")
          d.ticketId timers)
        d.plans d.ticketId d.slaPolicyId d.startedAt) :
    ∃ which new, Written d now timers timers' which new := by
  obtain ⟨new, hnew, hspec⟩ := insertTimers_spec
    (stopTimersWhere (fun t => t.slaPolicyId != d.slaPolicyId) now (some "reclassified")
      d.ticketId timers)
    d.plans d.ticketId d.slaPolicyId d.startedAt
  refine ⟨_, new, htimers.trans hnew, hspec, ?_, ?_⟩
  · intro t ht
    simp [ht]
  · intro payload _ t ht
    simpa using ht

theorem Performed.timers (h : Performed d now db db') :
    db'.timers = db.timers ∨
      d.Writes db.timers ∧ ∃ which new, Written d now db.timers db'.timers which new := by
  cases h with
  | refused _ =>
    left
    rfl
  | already _ _ =>
    left
    rfl
  | started hcases hevent htimers =>
    obtain ⟨new, hnew, hspec⟩ :=
      insertTimers_spec db.timers d.plans d.ticketId d.slaPolicyId d.startedAt
    rw [hnew] at htimers
    cases new with
    | nil =>
      left
      rw [htimers, List.append_nil]
    | cons t new =>
      right
      constructor
      · obtain ⟨plan, hplan, hrow⟩ := hspec.planned t List.mem_cons_self
        unfold Delivery.Writes
        rw [hevent]
        refine ⟨plan, hplan, ?_⟩
        intro u hu
        rw [← hrow]
        exact hspec.free t List.mem_cons_self u hu
      · refine ⟨fun _ => false, t :: new, ?_, ?_, fun _ _ => rfl, ?_⟩
        · rw [stopTimersWhere_false]
          exact htimers
        · rw [stopTimersWhere_false]
          exact hspec
        · intro payload hrepoint
          rw [hevent] at hrepoint
          cases hrepoint
  | repointed hcases hevent hnone htimers =>
    right
    constructor
    · unfold Delivery.Writes
      rw [hevent]
      exact hnone
    · exact written_of_repoint htimers

section Written

variable {d : Delivery} {now : Int} {timers timers' new : List SlaTimer} {which : SlaTimer → Bool}

theorem Written.unique (h : Written d now timers timers' which new) (hunique : UniqueActive timers) :
    UniqueActive timers' := by
  rw [h.eq]
  exact h.inserted.unique (hunique.map stopTimer_ends)

theorem Written.activeOf_ne (h : Written d now timers timers' which new) (hne : id ≠ d.ticketId) :
    activeOf timers' id = activeOf timers id := by
  rw [h.eq, h.inserted.activeOf_ne hne, activeOf_stopTimersWhere]
  apply List.filter_eq_self.mpr
  intro t ht
  have hid := (mem_activeOf.mp ht).2.1
  simp [hid, hne]

/-- After the write the active timers of the ticket are of the policy of the call, if the call
stops the others or there are none. -/
theorem Written.under (h : Written d now timers timers' which new)
    (halone : ∀ payload, d.event.payload = .recompute payload →
      ∀ t ∈ activeOf timers d.ticketId, t.slaPolicyId = d.slaPolicyId) :
    ∀ t ∈ activeOf timers' d.ticketId, t.slaPolicyId = d.slaPolicyId := by
  intro t ht
  rw [h.eq, activeOf_append] at ht
  rcases List.mem_append.mp ht with hkept | hadded
  · rw [activeOf_stopTimersWhere] at hkept
    obtain ⟨hactive, hnot⟩ := List.mem_filter.mp hkept
    cases hevent : d.event.payload with
    | recompute payload => exact halone payload hevent t hactive
    | repoint payload =>
      by_contra hne
      have hstopped := h.stopsOthers payload hevent t hne
      have hid := (mem_activeOf.mp hactive).2.1
      simp [hid, hstopped] at hnot
  · exact (h.inserted.measures (mem_activeOf.mp hadded).1).2

theorem Written.drop (h : Written d now timers timers' which new) :
    timers'.drop timers.length = new := by
  have hlength : (stopTimersWhere which now (some "reclassified") d.ticketId timers).length =
      timers.length := List.length_map _
  rw [h.eq, ← hlength, List.drop_left]

end Written

/-! ## The invariant -/

section Inv

variable {ι : Type} {env : HandlerEnv}

/-- An event that is not handled yet will repoint the timers of the case to the policy. -/
def Awaited (env : HandlerEnv) (w : RepointWorld ι) (id slaPolicyId : String) : Prop :=
  ∃ event ∈ w.db.events.rows, w.handled event.idempotencyKey = false ∧
    (∃ startedAt, event.payload = .repoint
      { tenantId := some env.tenantId, ticketId := some id, slaPolicyId := some slaPolicyId
        startedAt := some (some startedAt) }) ∧
    ∃ policy, w.db.tables.policy? slaPolicyId = some policy ∧ policy.hasTarget = true

/-- The active timers of a case are of one policy; of none without a policy, and with one of that
policy unless an event is awaited. -/
structure CaseInv (env : HandlerEnv) (w : RepointWorld ι) (id : String) (slaId : Option String) :
    Prop where
  onePolicy : ∀ t ∈ activeOf w.db.tables.timers id, ∀ u ∈ activeOf w.db.tables.timers id,
    t.slaPolicyId = u.slaPolicyId
  cleared : slaId = none → activeOf w.db.tables.timers id = []
  current : ∀ slaPolicyId, slaId = some slaPolicyId →
    (∀ t ∈ activeOf w.db.tables.timers id, t.slaPolicyId = slaPolicyId) ∨
      Awaited env w id slaPolicyId

/-- What a handler under way has read. -/
structure DeliveryInv (db : ReclassifyDb) (d : Delivery) : Prop where
  emitted : d.event ∈ db.events.rows
  plans : d.plans ≠ []
  policy : (db.tables.policy? d.slaPolicyId).isSome = true
  ticket : (db.tables.ticket? d.ticketId).isSome = true
  ticketId : d.event.payload.fields.ticketId = some d.ticketId
  slaPolicyId : d.event.payload.fields.slaPolicyId = some d.slaPolicyId

structure RepointInv (env : HandlerEnv) (w : RepointWorld ι) : Prop where
  unique : UniqueActive w.db.tables.timers
  cases : ∀ id ticket, w.db.tables.ticket? id = some ticket → CaseInv env w id ticket.slaId
  underway : ∀ i d, w.delivery i = some d → DeliveryInv w.db d
  recorded : ∀ event ∈ w.db.events.rows, ∀ ticketId key,
    event.idempotencyKey = .reclassify ticketId key → (w.db.ops.get? key).isSome = true
  known : ∀ key, w.handled key = true → (w.db.events.get? key).isSome = true

variable {id : String}

theorem CaseInv.mono {w w' : RepointWorld ι} (h : CaseInv env w id slaId)
    (htimers : ∀ t ∈ activeOf w'.db.tables.timers id, t ∈ activeOf w.db.tables.timers id)
    (hawaited : ∀ slaPolicyId, slaId = some slaPolicyId → Awaited env w id slaPolicyId →
      (∀ t ∈ activeOf w.db.tables.timers id, t.slaPolicyId = slaPolicyId) ∨
        Awaited env w' id slaPolicyId) :
    CaseInv env w' id slaId := by
  constructor
  · intro t ht u hu
    exact h.onePolicy t (htimers t ht) u (htimers u hu)
  · intro hnone
    apply List.eq_nil_iff_forall_not_mem.mpr
    intro t ht
    have hold := htimers t ht
    rw [h.cleared hnone] at hold
    cases hold
  · intro slaPolicyId hsome
    rcases h.current slaPolicyId hsome with hall | hwait
    · left
      intro t ht
      exact hall t (htimers t ht)
    · rcases hawaited slaPolicyId hsome hwait with hall | hwait'
      · left
        intro t ht
        exact hall t (htimers t ht)
      · right
        exact hwait'

/-! ## What a handler prepares -/

variable {startedAt : Int} {add : AddBusinessMinutes}

theorem positiveTimers_ne_nil {policy : SlaPolicy} (h : policy.hasTarget = true) :
    policy.positiveTimers add startedAt ≠ [] := by
  have hplanned : ∀ (timerType : TimerType) (minutes : Option Int),
      minutes.any (fun m => decide (0 < m)) = true →
        planTimer add policy startedAt timerType (minutes.filter fun m => decide (0 < m)) ≠ [] := by
    intro timerType minutes hpos
    cases minutes with
    | none => cases hpos
    | some m =>
      have hm : 0 < m := by simpa using hpos
      have hne : m ≠ 0 := by omega
      simp [planTimer, Option.filter, hm, hne]
  intro hnil
  obtain ⟨hresponse, hresolution⟩ := List.append_eq_nil_iff.mp hnil
  rcases Bool.or_eq_true_iff.mp h with hpos | hpos
  · exact hplanned .response _ hpos hresponse
  · exact hplanned .resolution _ hpos hresolution

variable {slaPolicyId : String}

theorem prepare_call {name : String} {db : CaseTables} {event : TimerEvent} {ticketId : String}
    (h : prepare name add now db event = .call ticketId slaPolicyId plans startedAt) :
    event.payload.ticketId = some ticketId ∧ event.payload.slaPolicyId = some slaPolicyId ∧
      plans ≠ [] ∧ (db.policy? slaPolicyId).isSome = true ∧
      (db.ticket? ticketId).isSome = true := by
  unfold prepare at h
  split_ifs at h
  cases hid : event.payload.ticketId with
  | none =>
    rw [hid] at h
    cases h
  | some id =>
    simp only [hid] at h
    cases hcurrent : (db.ticket? id).bind Entity.slaId with
    | none =>
      rw [hcurrent] at h
      cases h
    | some current =>
      simp only [hcurrent] at h
      split_ifs at h with hstale
      cases hpolicy : db.policy? current with
      | none =>
        rw [hpolicy] at h
        cases h
      | some policy =>
        simp only [hpolicy] at h
        cases hstart : event.payload.startedAt.getD (some now) with
        | none =>
          rw [hstart] at h
          cases h
        | some at' =>
          simp only [hstart] at h
          split_ifs at h with hnil
          cases h
          obtain ⟨ticket, hticket, _⟩ := Option.bind_eq_some_iff.mp hcurrent
          have hsame : some slaPolicyId = event.payload.slaPolicyId := by
            by_contra hne
            exact hstale hne
          refine ⟨rfl, hsame.symm, hnil, ?_, ?_⟩
          · rw [hpolicy]
            rfl
          · rw [hticket]
            rfl

theorem prepareEvent_awaited {db : CaseTables} {event : Event TimerEventKey TimerEventPayload}
    {ticket : Entity} {policy : SlaPolicy}
    (hticket : db.ticket? id = some ticket) (hsla : ticket.slaId = some slaPolicyId)
    (hpayload : event.payload = .repoint
      { tenantId := some env.tenantId, ticketId := some id, slaPolicyId := some slaPolicyId
        startedAt := some (some startedAt) })
    (hpolicy : db.policy? slaPolicyId = some policy) (htarget : policy.hasTarget = true) :
    ∃ plans, prepareEvent env now db event = .call id slaPolicyId plans startedAt := by
  have hcurrent : (db.ticket? id).bind Entity.slaId = some slaPolicyId := by
    rw [hticket]
    exact hsla
  refine ⟨policy.positiveTimers env.addBusinessMinutes startedAt, ?_⟩
  unfold prepareEvent prepare
  simp only [hpayload, TimerEventPayload.fields, ne_eq, not_true_eq_false, if_false, hcurrent,
    hpolicy, Option.getD_some, positiveTimers_ne_nil htarget]

theorem Awaited.mark [DecidableEq ι] {w : RepointWorld ι} (h : Awaited env w id slaPolicyId) :
    Awaited env (w.mark key) id slaPolicyId ∨
      ∃ event ∈ w.db.events.rows, event.idempotencyKey = key ∧
        (∃ startedAt, event.payload = .repoint
          { tenantId := some env.tenantId, ticketId := some id, slaPolicyId := some slaPolicyId
            startedAt := some (some startedAt) }) ∧
        ∃ policy, w.db.tables.policy? slaPolicyId = some policy ∧ policy.hasTarget = true := by
  obtain ⟨event, hmem, hopen, hpayload, hpolicy⟩ := h
  by_cases hkey : event.idempotencyKey = key
  · right
    exact ⟨event, hmem, hkey, hpayload, hpolicy⟩
  · left
    refine ⟨event, hmem, ?_, hpayload, hpolicy⟩
    simp only [RepointWorld.mark, if_neg hkey]
    exact hopen

end Inv

/-! ## Steps -/

section Steps

variable {ι : Type} [DecidableEq ι] {env : HandlerEnv} {w : RepointWorld ι}

theorem RepointInv.stop (h : RepointInv env w) (i : ι) : RepointInv env (w.setDelivery i none) := by
  refine ⟨h.unique, ?_, ?_, h.recorded, h.known⟩
  · intro id ticket hticket
    exact (h.cases id ticket hticket).mono (fun t ht => ht) fun _ _ hwait => .inr hwait
  · intro j d hd
    simp only [RepointWorld.setDelivery] at hd
    split_ifs at hd
    exact h.underway j d hd

theorem RepointInv.complete (h : RepointInv env w) (ticketId : String)
    (timerType : Option TimerType) (now : Int) :
    RepointInv env (repointStep env w (.complete ticketId timerType now)) := by
  refine ⟨h.unique.map completeTimer_ends, ?_, ?_, h.recorded, h.known⟩
  · intro id ticket hticket
    exact (h.cases id ticket hticket).mono (fun t ht => mem_activeOf_completeTimers ht)
      fun _ _ hwait => .inr hwait
  · intro i d hd
    have hold := h.underway i d hd
    exact ⟨hold.emitted, hold.plans, hold.policy, hold.ticket, hold.ticketId, hold.slaPolicyId⟩

omit [DecidableEq ι] in
theorem RepointInv.mark (h : RepointInv env w) (hkey : (w.db.events.get? key).isSome = true)
    (hwait : ∀ id ticket slaPolicyId, w.db.tables.ticket? id = some ticket →
      ticket.slaId = some slaPolicyId → Awaited env w id slaPolicyId →
        (∀ t ∈ activeOf w.db.tables.timers id, t.slaPolicyId = slaPolicyId) ∨
          Awaited env (w.mark key) id slaPolicyId) :
    RepointInv env (w.mark key) := by
  refine ⟨h.unique, ?_, h.underway, h.recorded, ?_⟩
  · intro id ticket hticket
    refine (h.cases id ticket hticket).mono ?_ ?_
    · intro t ht
      exact ht
    · intro slaPolicyId hsla
      exact hwait id ticket slaPolicyId hticket hsla
  · intro k hk
    simp only [RepointWorld.mark] at hk
    split_ifs at hk with hsame
    · rw [hsame]
      exact hkey
    · exact h.known k hk

theorem RepointInv.read (h : RepointInv env w) (i : ι) (key : TimerEventKey) (now : Int) :
    RepointInv env (repointStep env w (.read i key now)) := by
  show RepointInv env (match w.delivery i, w.db.events.get? key with
    | none, some event => w.afterRead i event (prepareEvent env now w.db.tables event)
    | _, _ => w)
  have hdelivered : ∀ k, RepointInv env (w.deliver k) := fun k =>
    ⟨h.unique, fun id ticket hticket => (h.cases id ticket hticket).mono (fun t ht => ht)
      fun _ _ hwait => .inr hwait, h.underway, h.recorded, h.known⟩
  cases hidle : w.delivery i with
  | some d => exact h
  | none =>
    cases hget : w.db.events.get? key with
    | none => exact h
    | some event =>
      obtain ⟨hmem, hkey⟩ := Table.get?_eq_some.mp hget
      obtain rfl : event.idempotencyKey = key := hkey
      show RepointInv env (w.afterRead i event (prepareEvent env now w.db.tables event))
      cases hprepared : prepareEvent env now w.db.tables event with
      | ended result =>
        unfold RepointWorld.afterRead
        by_cases hretried : isRetried result = true
        · simp only [if_pos hretried]
          exact hdelivered _
        · simp only [if_neg hretried]
          apply (hdelivered _).mark
          · show (w.db.events.get? _).isSome = true
            rw [hget]
            rfl
          intro id ticket slaPolicyId hticket hsla hwait
          right
          rcases hwait.mark with hstill | ⟨other, hother, hsame, ⟨startedAt, hpayload⟩,
            policy, hpolicy, htarget⟩
          · exact hstill
          · -- the event would have gone on to its call
            obtain rfl : other = event := w.db.events.eq_of_key_eq hother hmem hsame
            obtain ⟨plans, hcall⟩ : ∃ plans, prepareEvent env now w.db.tables other =
                .call id slaPolicyId plans startedAt :=
              prepareEvent_awaited hticket hsla hpayload hpolicy htarget
            rw [hcall] at hprepared
            cases hprepared
      | call ticketId slaPolicyId plans startedAt =>
        obtain ⟨hticket, hsla, hplans, hpolicy, hfound⟩ := prepare_call hprepared
        have hdone := hdelivered event.idempotencyKey
        refine ⟨hdone.unique, ?_, ?_, hdone.recorded, hdone.known⟩
        · intro id ticket hid
          exact (hdone.cases id ticket hid).mono (fun t ht => ht) fun _ _ hwait => .inr hwait
        · intro j d hd
          simp only [RepointWorld.afterRead, RepointWorld.setDelivery] at hd
          split_ifs at hd
          · obtain rfl := Option.some.inj hd
            exact ⟨hmem, hplans, hpolicy, hfound, hticket, hsla⟩
          · exact h.underway j d hd

variable {db db' : CaseTables}

theorem SameCases.ticket (h : SameCases db db') {ticket' : Entity}
    (hticket : db'.ticket? id = some ticket') :
    ∃ ticket, db.ticket? id = some ticket ∧ ticket.slaId = ticket'.slaId := by
  have hsla := h.slaOf id
  rw [hticket, Option.map_some] at hsla
  exact Option.map_eq_some_iff.mp hsla.symm

theorem SameCases.policy? (h : SameCases db db') (id : String) :
    db'.policy? id = db.policy? id := by
  unfold CaseTables.policy?
  rw [h.policies]

variable {tables : CaseTables} {d : Delivery}

theorem SameCases.delivery {db : ReclassifyDb}
    (h : SameCases db.tables tables) (hd : DeliveryInv db d) :
    DeliveryInv { db with tables := tables } d := by
  refine ⟨hd.emitted, hd.plans, ?_, ?_, hd.ticketId, hd.slaPolicyId⟩
  · show (tables.policy? d.slaPolicyId).isSome = true
    rw [h.policy?]
    exact hd.policy
  · show (tables.ticket? d.ticketId).isSome = true
    have hsla := congrArg Option.isSome (h.slaOf d.ticketId)
    rw [Option.isSome_map, Option.isSome_map] at hsla
    rw [hsla]
    exact hd.ticket

theorem Performed.under {payload : TimerPayload}
    (h : Performed d now db db') (hevent : d.event.payload = .repoint payload)
    (haccepted : ¬(d.plans = [] ∨ db.policy? d.slaPolicyId = none ∨ db.ticket? d.ticketId = none))
    (hone : ∀ t ∈ activeOf db.timers d.ticketId, ∀ u ∈ activeOf db.timers d.ticketId,
      t.slaPolicyId = u.slaPolicyId) :
    ∀ t ∈ activeOf db'.timers d.ticketId, t.slaPolicyId = d.slaPolicyId := by
  have hwrites : ∀ p, d.event.payload = .recompute p →
      ∀ t ∈ activeOf db.timers d.ticketId, t.slaPolicyId = d.slaPolicyId := by
    intro p hrecompute
    rw [hevent] at hrecompute
    cases hrecompute
  cases h with
  | refused hwhy => exact absurd hwhy haccepted
  | already _ hsome =>
    obtain ⟨u, hu, hpolicy⟩ := hsome
    intro t ht
    rw [hone t ht u hu, hpolicy]
  | started _ hrecompute _ =>
    rw [hevent] at hrecompute
    cases hrecompute
  | repointed _ _ _ htimers =>
    obtain ⟨which, new, hwritten⟩ := written_of_repoint htimers
    exact hwritten.under hwrites

theorem RepointInv.performed (h : RepointInv env w) {i : ι}
    (hperformed : Performed d now w.db.tables tables)
    (horderly : d.Writes w.db.tables.timers → OrderlyCall w d) :
    RepointInv env ((w.setTables tables).setDelivery i none) := by
  have hcases := hperformed.sameCases
  refine ⟨?_, ?_, ?_, h.recorded, h.known⟩
  · show UniqueActive tables.timers
    rcases hperformed.timers with hsame | ⟨_, which, new, hwritten⟩
    · rw [hsame]
      exact h.unique
    · exact hwritten.unique h.unique
  · intro id ticket' hticket'
    obtain ⟨ticket, hticket, hsla⟩ := hcases.ticket hticket'
    rw [← hsla]
    have hold := h.cases id ticket hticket
    have hawaited : ∀ slaPolicyId, Awaited env w id slaPolicyId →
        Awaited env ((w.setTables tables).setDelivery i none) id slaPolicyId := by
      rintro slaPolicyId ⟨event, hmem, hopen, hpayload, policy, hpolicy, htarget⟩
      refine ⟨event, hmem, hopen, hpayload, policy, ?_, htarget⟩
      exact (hcases.policy? slaPolicyId).trans hpolicy
    rcases hperformed.timers with hsame | ⟨hwrites, which, new, hwritten⟩
    · refine hold.mono ?_ fun slaPolicyId _ hwait => .inr (hawaited slaPolicyId hwait)
      intro t ht
      rw [← hsame]
      exact ht
    · by_cases hid : id = d.ticketId
      · subst hid
        have hcall := horderly hwrites
        have hcurrent := hcall.current ticket hticket
        have hunder : ∀ t ∈ activeOf tables.timers d.ticketId, t.slaPolicyId = d.slaPolicyId :=
          hwritten.under hcall.alone
        constructor
        · intro t ht u hu
          rw [hunder t ht, hunder u hu]
        · intro hnone
          rw [hcurrent] at hnone
          cases hnone
        · intro slaPolicyId hsome
          left
          obtain rfl := Option.some.inj (hcurrent.symm.trans hsome)
          exact hunder
      · refine hold.mono ?_ fun slaPolicyId _ hwait => .inr (hawaited slaPolicyId hwait)
        intro t ht
        rw [← hwritten.activeOf_ne hid]
        exact ht
  · intro j d' hd'
    simp only [RepointWorld.setDelivery] at hd'
    split_ifs at hd'
    exact hcases.delivery (h.underway j d' hd')

theorem RepointInv.call (h : RepointInv env w) (i : ι) (now : Int) (reported : Bool)
    (horderly : Orderly w (.call i now reported)) :
    RepointInv env (repointStep env w (.call i now reported)) := by
  cases hd : w.delivery i with
  | none =>
    have hsame : repointStep env w (.call i now reported) = w := by
      simp only [repointStep, hd]
    rw [hsame]
    exact h
  | some d =>
    have hperformed := perform_spec d now w.db.tables
    have hinv := h.underway i d hd
    have hafter : RepointInv env
        ((w.setTables (d.perform now w.db.tables).1).setDelivery i none) :=
      h.performed hperformed (horderly d hd)
    simp only [repointStep, hd]
    split_ifs
    · apply hafter.mark
      · show (w.db.events.get? d.event.idempotencyKey).isSome = true
        have hget : w.db.events.get? d.event.idempotencyKey = some d.event :=
          Table.get?_of_mem hinv.emitted
        rw [hget]
        rfl
      · intro id ticket' slaPolicyId hticket' hsla hwait
        rcases hwait.mark with hstill | ⟨other, hother, hsame, ⟨startedAt, hpayload⟩, _⟩
        · exact .inr hstill
        · left
          obtain rfl : other = d.event :=
            w.db.events.eq_of_key_eq hother hinv.emitted hsame
          have hnames := hinv.ticketId
          have hunder := hinv.slaPolicyId
          rw [hpayload] at hnames hunder
          obtain rfl : id = d.ticketId := Option.some.inj hnames
          obtain rfl : slaPolicyId = d.slaPolicyId := Option.some.inj hunder
          obtain ⟨ticket, hticket, _⟩ := hperformed.sameCases.ticket hticket'
          apply hperformed.under hpayload
          · intro hwhy
            rcases hwhy with hplans | hpolicy | hmissing
            · exact hinv.plans hplans
            · exact Option.isSome_iff_ne_none.mp hinv.policy hpolicy
            · exact Option.isSome_iff_ne_none.mp hinv.ticket hmissing
          · exact (h.cases _ ticket hticket).onePolicy
    · exact hafter

variable {ticket : Entity}

theorem ticket_id (h : db.ticket? id = some ticket) : ticket.id = id :=
  (Table.get?_eq_some.mp (Option.filter_eq_some_iff.mp h).1).2

variable {c : ReclassifyCall}

theorem Announced.mem {tenantId : String} {db : ReclassifyDb}
    {events : Table (Event TimerEventKey TimerEventPayload)}
    (h : Announced tenantId db c ticket slaId tables events)
    (event : Event TimerEventKey TimerEventPayload) :
    (event ∈ db.events.rows → event ∈ events.rows) ∧ (event ∈ events.rows → event ∈ db.events.rows ∨
        event.idempotencyKey = .reclassify c.ticketId c.idempotencyKey) := by
  cases h with
  | same _ _ hevents =>
    rw [hevents]
    exact ⟨id, .inl⟩
  | repointed _ _ _ hemit =>
    rw [mem_of_emit hemit]
    refine ⟨.inl, ?_⟩
    intro hmem
    rcases hmem with hold | rfl
    · exact .inl hold
    · exact .inr rfl
  | cleared _ _ _ hevents =>
    rw [hevents]
    exact ⟨id, .inl⟩

omit [DecidableEq ι] in
theorem RepointInv.fresh (h : RepointInv env w) (hfresh : w.db.ops.get? c.idempotencyKey = none) :
    w.handled (.reclassify c.ticketId c.idempotencyKey) = false := by
  by_contra hhandled
  have hget := h.known (.reclassify c.ticketId c.idempotencyKey) (by simpa using hhandled)
  obtain ⟨event, hevent⟩ := Option.isSome_iff_exists.mp hget
  obtain ⟨hmem, hkey⟩ := Table.get?_eq_some.mp hevent
  have hrecorded := h.recorded event hmem c.ticketId c.idempotencyKey hkey
  rw [hfresh] at hrecorded
  cases hrecorded

omit [DecidableEq ι] in
theorem RepointInv.reclassified (h : RepointInv env w) {dir : ReclassifyDirectory}
    {db : ReclassifyDb} {derived : EffectiveConfig}
    (hdone : Reclassified env.tenantId dir w.db db c ticket derived)
    (horderly : OrderlyReclassify w dir c) : RepointInv env { w with db := db } := by
  obtain ⟨hannounced, hpolicies, hslaOf⟩ := announceSla_cases hdone.announced
  have hid := ticket_id hdone.found
  have hpolicy : ∀ id, db.tables.policy? id = w.db.tables.policy? id := by
    intro id
    unfold CaseTables.policy?
    rw [hpolicies]
  have hawaited : ∀ id slaPolicyId, Awaited env w id slaPolicyId →
      Awaited env { w with db := db } id slaPolicyId := by
    rintro id slaPolicyId ⟨event, hmem, hopen, hpayload, policy, hsome, htarget⟩
    exact ⟨event, (hannounced.mem event).1 hmem, hopen, hpayload, policy,
      (hpolicy slaPolicyId).trans hsome, htarget⟩
  refine ⟨?_, ?_, ?_, ?_, ?_⟩
  · show UniqueActive db.tables.timers
    cases hannounced with
    | same _ htimers _ =>
      rw [htimers]
      exact h.unique
    | repointed _ _ htimers _ =>
      rw [htimers]
      exact h.unique
    | cleared _ reason htimers _ =>
      rw [htimers]
      exact h.unique.map stopTimer_ends
  · intro id ticket' hticket'
    have hsla := hslaOf id
    have hsome : db.tables.ticket? id = some ticket' := hticket'
    rw [hsome, Option.map_some] at hsla
    obtain ⟨old, hold, hnew⟩ := Option.map_eq_some_iff.mp hsla.symm
    have hcase := h.cases id old hold
    by_cases hthis : id = ticket.id
    · obtain rfl : old = ticket := by
        rw [hthis, hid] at hold
        exact Option.some.inj (hold.symm.trans hdone.found)
      rw [if_pos hthis] at hnew
      rw [← hnew]
      cases hannounced with
      | same hsame htimers hevents =>
        rw [← hsame]
        refine hcase.mono ?_ fun slaPolicyId _ hwait => .inr (hawaited id slaPolicyId hwait)
        intro t ht
        rw [← htimers]
        exact ht
      | repointed hsome hchanged htimers hemit =>
        rename_i slaPolicyId
        rw [hsome]
        have hactive : activeOf db.tables.timers id = activeOf w.db.tables.timers id := by
          rw [htimers]
        constructor
        · show ∀ t ∈ activeOf db.tables.timers id, ∀ u ∈ activeOf db.tables.timers id, _
          rw [hactive]
          exact hcase.onePolicy
        · intro hnone
          cases hnone
        · intro slaPolicyId' heq
          obtain rfl := Option.some.inj heq
          obtain ⟨policy, hfound⟩ := Option.isSome_iff_exists.mp (hdone.known _ hsome)
          obtain ⟨newRequestTypeId, hchecked⟩ := hdone.checked
          have hbind : derived.slaPolicyId.bind w.db.tables.policy? = some policy := by
            rw [hsome]
            exact hfound
          rcases horderly old newRequestTypeId derived hdone.found hchecked hchanged policy
            hbind with htarget | hempty
          · right
            refine ⟨repointEvent env.tenantId c slaPolicyId, (mem_of_emit hemit _).mpr (.inr rfl),
              h.fresh hdone.fresh, ⟨c.now, ?_⟩, policy, (hpolicy _).trans hfound, htarget⟩
            rw [hthis, hid]
            rfl
          · left
            intro t ht
            have ht' : t ∈ activeOf db.tables.timers id := ht
            rw [hactive, hthis, hempty] at ht'
            cases ht'
      | cleared hnone reason htimers hevents =>
        rw [hnone]
        have hempty : activeOf db.tables.timers id = [] := by
          rw [htimers, activeOf_stopTimersWhere]
          apply List.filter_eq_nil_iff.mpr
          intro t ht
          have hticketId := (mem_activeOf.mp ht).2.1
          simp [hticketId, hthis]
        constructor
        · intro t ht
          have ht' : t ∈ activeOf db.tables.timers id := ht
          rw [hempty] at ht'
          cases ht'
        · intro _
          exact hempty
        · intro slaPolicyId hsome
          cases hsome
    · rw [if_neg hthis] at hnew
      rw [← hnew]
      have hactive : activeOf db.tables.timers id = activeOf w.db.tables.timers id := by
        cases hannounced with
        | same _ htimers _ => rw [htimers]
        | repointed _ _ htimers _ => rw [htimers]
        | cleared _ reason htimers _ =>
          rw [htimers, activeOf_stopTimersWhere]
          apply List.filter_eq_self.mpr
          intro t ht
          have hticketId := (mem_activeOf.mp ht).2.1
          simp [hticketId, hthis]
      refine hcase.mono ?_ fun slaPolicyId _ hwait => .inr (hawaited id slaPolicyId hwait)
      intro t ht
      rw [← hactive]
      exact ht
  · intro i d hd
    have hinv := h.underway i d hd
    refine ⟨(hannounced.mem d.event).1 hinv.emitted, hinv.plans, ?_, ?_, hinv.ticketId,
      hinv.slaPolicyId⟩
    · rw [hpolicy]
      exact hinv.policy
    · have hsome := congrArg Option.isSome (hslaOf d.ticketId)
      rw [Option.isSome_map, Option.isSome_map] at hsome
      rw [hsome]
      exact hinv.ticket
  · intro event hevent ticketId key hkey
    apply (hdone.recorded key).mpr
    rcases (hannounced.mem event).2 hevent with hold | hthis
    · right
      exact h.recorded event hold ticketId key hkey
    · left
      rw [hkey] at hthis
      cases hthis
      rfl
  · intro key hkey
    obtain ⟨event, hevent⟩ := Option.isSome_iff_exists.mp (h.known key hkey)
    obtain ⟨hmem, rfl⟩ := Table.get?_eq_some.mp hevent
    show (db.events.get? event.idempotencyKey).isSome = true
    have hget : db.events.get? event.idempotencyKey = some event :=
      Table.get?_of_mem ((hannounced.mem event).1 hmem)
    rw [hget]
    rfl

theorem RepointInv.reclassify (h : RepointInv env w) (dir : ReclassifyDirectory)
    (c : ReclassifyCall) (horderly : OrderlyReclassify w dir c) :
    RepointInv env (repointStep env w (.reclassify dir c)) := by
  cases hcall : reclassifyTicket env.tenantId dir w.db c with
  | error message =>
    have hsame : repointStep env w (.reclassify dir c) = w := by
      simp only [repointStep, hcall]
    rw [hsame]
    exact h
  | ok db =>
    have hstep : repointStep env w (.reclassify dir c) = { w with db := db } := by
      simp only [repointStep, hcall]
    rw [hstep]
    rcases reclassifyTicket_cases hcall with rfl | ⟨ticket, derived, hdone⟩
    · exact h
    · exact h.reclassified hdone horderly

theorem RepointInv.step (h : RepointInv env w) (a : RepointAction ι) (horderly : Orderly w a) :
    RepointInv env (repointStep env w a) := by
  cases a with
  | reclassify dir c => exact h.reclassify dir c horderly
  | complete ticketId timerType now => exact h.complete ticketId timerType now
  | read i key now => exact h.read i key now
  | call i now reported => exact h.call i now reported horderly
  | stop i => exact h.stop i

omit [DecidableEq ι] in
theorem RepointInv.converged (h : RepointInv env w) (hall : AllHandled w) :
    Converged w.db.tables := by
  intro ticket hmem hkind
  have hget : w.db.tables.entities.get? ticket.id = some ticket := Table.get?_of_mem hmem
  have hticket : w.db.tables.ticket? ticket.id = some ticket := by
    simp [CaseTables.ticket?, CaseTables.entity?, hget, hkind]
  have hcase := h.cases ticket.id ticket hticket
  have hpolicy : ∀ t ∈ activeOf w.db.tables.timers ticket.id, ticket.slaId = some t.slaPolicyId := by
    intro t ht
    cases hsla : ticket.slaId with
    | none =>
      rw [hcase.cleared hsla] at ht
      cases ht
    | some slaPolicyId =>
      rcases hcase.current slaPolicyId hsla with hunder | ⟨event, hevent, hopen, _⟩
      · rw [hunder t ht]
      · rw [hall.2 event hevent] at hopen
        cases hopen
  refine ⟨hpolicy, ?_⟩
  have hunique : (activeOf w.db.tables.timers ticket.id).Pairwise fun t u =>
      t.sameSlot u = false := by
    have hactive : activeOf w.db.tables.timers ticket.id =
        (w.db.tables.timers.filter SlaTimer.active).filter fun t => t.ticketId == ticket.id := by
      rw [List.filter_filter]
      rfl
    rw [hactive]
    exact h.unique.filter _
  apply hunique.imp_of_mem
  intro t u ht hu hslot htype
  have hsame : t.sameSlot u = true := by
    apply SlaTimer.sameSlot_iff.mpr
    refine ⟨?_, hcase.onePolicy t ht u hu, htype⟩
    rw [(mem_activeOf.mp ht).2.1, (mem_activeOf.mp hu).2.1]
  rw [hsame] at hslot
  cases hslot

omit [DecidableEq ι] in
theorem noRestart_of_orderly {a : RepointAction ι} (horderly : Orderly w a) : NoRestart w a := by
  cases a with
  | call i now reported =>
    intro d hd hagain t ht u hu hcompleted
    rcases (perform_spec d now w.db.tables).timers with hsame | ⟨hwrites, which, new, hwritten⟩
    · rw [hsame, List.drop_length] at ht
      cases ht
    · rw [hwritten.drop] at ht
      obtain ⟨plan, hplan, rfl⟩ := hwritten.inserted.planned t ht
      have hopens : d.opens w.db.tables.timers plan := by
        intro v hv hactive
        by_contra hslot
        have hsame := SlaTimer.sameSlot_iff.mp (by simpa using hslot)
        -- a timer in the slot is of the policy of the call, and such a timer is not stopped
        have hkept : stopTimer which now (some "reclassified") d.ticketId v = v := by
          have hwhich := hwritten.keepsOwn v hsame.2.1.symm
          simp [stopTimer, hwhich]
        have hmem : v ∈ stopTimersWhere which now (some "reclassified") d.ticketId
            w.db.tables.timers := List.mem_map.mpr ⟨v, hv, hkept⟩
        exact hslot (hwritten.inserted.free _ ht v hmem hactive)
      exact (horderly d hd hwrites).noRestart hagain plan hplan hopens u hu hcompleted
  | reclassify dir c => trivial
  | complete ticketId timerType now => trivial
  | read i key now => trivial
  | stop i => trivial

end Steps

/-! ## Runs -/

/-- The world before the run: the timers have converged, no handler is under way, and what is
recorded or handled fits the events that were emitted. -/
structure RepointStart {ι : Type} (w : RepointWorld ι) : Prop where
  converged : Converged w.db.tables
  unique : UniqueActive w.db.tables.timers
  idle : ∀ i, w.delivery i = none
  recorded : ∀ event ∈ w.db.events.rows, ∀ ticketId key,
    event.idempotencyKey = .reclassify ticketId key → (w.db.ops.get? key).isSome = true
  known : ∀ key, w.handled key = true → (w.db.events.get? key).isSome = true

theorem RepointStart.inv {ι : Type} {env : HandlerEnv} {w : RepointWorld ι} (h : RepointStart w) :
    RepointInv env w := by
  refine ⟨h.unique, ?_, ?_, h.recorded, h.known⟩
  · intro id ticket hticket
    obtain ⟨hget, hkind⟩ := Option.filter_eq_some_iff.mp hticket
    obtain ⟨hmem, rfl⟩ := Table.get?_eq_some.mp hget
    have hunder := (h.converged ticket hmem (by simpa using hkind)).1
    constructor
    · intro t ht u hu
      exact Option.some.inj ((hunder t ht).symm.trans (hunder u hu))
    · intro hnone
      apply List.eq_nil_iff_forall_not_mem.mpr
      intro t ht
      have hsome := hunder t ht
      rw [hnone] at hsome
      cases hsome
    · intro slaPolicyId hsome
      left
      intro t ht
      exact Option.some.inj ((hunder t ht).symm.trans hsome)
  · intro i d hd
    rw [h.idle i] at hd
    cases hd

/-- In every run of orderly steps the timers have converged whenever all events are handled, and
no redelivered event restarts a timer. -/
theorem timersLaw_of_orderly {ι : Type} [DecidableEq ι] (env : HandlerEnv) {w : RepointWorld ι}
    (hstart : RepointStart w) {actions : List (RepointAction ι)}
    (horderly : Guarded (repointStep env) Orderly w actions) : TimersLaw env w actions := by
  constructor
  · intro pre post hsplit hall
    rw [hsplit] at horderly
    have hinv : RepointInv env (run (repointStep env) w pre) :=
      horderly.take.invariant (fun _ a h ha => h.step a ha) hstart.inv
    exact hinv.converged hall
  · intro pre a post hsplit
    exact noRestart_of_orderly (guarded_iff.mp horderly pre a post hsplit)

def twoTypes : ReclassifyDirectory where
  requestType id :=
    if id = "premium" then some { slaPolicyId := some "gold" }
    else if id = "plain" then some {}
    else none

/-- A case without a policy. -/
def plainCase : RepointWorld Unit where
  db :=
    { tables :=
        { entities :=
            { rows :=
                [{ id := "case"
                   kind := .case
                   columns := { status := "new", statusCategory := "new" } }]
              nodup := by decide }
          policies := [{ id := "gold", resolutionTimeMinutes := some 240 }] }
      scope := fun _ => {} }

def reclassifyTo (newRequestTypeId : String) (slaPolicyId : Option String) : RepointAction Unit :=
  .reclassify twoTypes
    { ticketId := "case"
      idempotencyKey := newRequestTypeId
      input := { newRequestTypeId := newRequestTypeId, plan := { slaPolicyId := slaPolicyId } }
      now := 0 }

theorem plainCase_start : RepointStart plainCase where
  converged := by
    intro ticket _ _
    exact ⟨fun t ht => absurd ht (List.not_mem_nil), List.Pairwise.nil⟩
  unique := List.Pairwise.nil
  idle _ := rfl
  recorded event hevent := absurd hevent List.not_mem_nil
  known key hkey := absurd hkey Bool.false_ne_true

/-- The case loses its policy between the read and the call of the handler. -/
theorem lateCall_diverges :
    ¬∀ (env : HandlerEnv) (w : RepointWorld Unit) (actions : List (RepointAction Unit)),
      RepointStart w → TimersLaw env w actions := by
  intro h
  have hlaw := (h clockMinutes plainCase
    [reclassifyTo "premium" (some "gold"), .read () (.reclassify "case" "premium") 1,
      reclassifyTo "plain" none, .call () 2 true] plainCase_start).1 _ [] (List.append_nil _).symm
  have hconverged := hlaw ⟨by intro i; rfl, by decide +kernel⟩
  have hcase := (hconverged
    { id := "case"
      kind := .case
      columns := { status := "new", statusCategory := "new" }
      slaResolutionDueAt := some 240 } (by decide +kernel) rfl).1
    { ticketId := "case", slaPolicyId := "gold", timerType := .resolution
      targetMinutes := 240, dueAt := 240, startedAt := 0 } (by decide +kernel)
  cases hcase

/-- A case that is reclassified once gets the timers of its policy. -/
theorem oneReclassification_converges :
    TimersLaw clockMinutes plainCase
      [reclassifyTo "premium" (some "gold"), .read () (.reclassify "case" "premium") 1,
        .call () 2 true] := by
  apply timersLaw_of_orderly clockMinutes plainCase_start
  refine ⟨?_, trivial, ?_, trivial⟩
  · intro ticket newRequestTypeId derived _ _ _ policy hpolicy
    left
    obtain ⟨id, _, hfound⟩ := Option.bind_eq_some_iff.mp hpolicy
    obtain rfl := List.mem_singleton.mp (List.mem_of_find?_eq_some hfound)
    decide
  · intro d hd _
    have hread : (repointStep clockMinutes (repointStep clockMinutes plainCase
        (reclassifyTo "premium" (some "gold"))) (.read () (.reclassify "case" "premium") 1)).delivery
          () = some
        { event := repointEvent "tenant"
            { ticketId := "case", idempotencyKey := "premium", now := 0
              input := { newRequestTypeId := "premium", plan := { slaPolicyId := some "gold" } } }
            "gold"
          ticketId := "case", slaPolicyId := "gold", startedAt := 0
          plans :=
            [{ timerType := .resolution, targetMinutes := 240, dueAt := 240
               businessHoursCalendarId := none }] } := by
      decide +kernel
    obtain rfl := Option.some.inj (hread.symm.trans hd)
    refine ⟨?_, ?_, ?_⟩
    · intro ticket hticket
      obtain rfl := Option.some.inj hticket
      rfl
    · intro payload hpayload
      cases hpayload
    · intro hagain
      exact absurd hagain (by decide +kernel)

end Prequest.Cases
