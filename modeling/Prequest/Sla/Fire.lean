import Prequest.Sla.Timer

/-!
# Firing a threshold

`fireThreshold` notifies or reassigns the ticket of a timer and records that it
did. It makes several calls to the database, each of which commits on its own:
the reads, the probe of `command_operations`, the reassignment, the courtesy
copy to the watchers, the insert of the crossing, and the side effects of the
call that won the insert.

* `fireThreshold_ok`: when a firing does not throw, it leaves its crossing.
-/

namespace Prequest.Sla

open Prequest.Lib Prequest.Command

inductive Assignee where
  | person (personId : Nat)
  | team (teamId : Nat)
  deriving DecidableEq, Repr

/-- `resolved.personId ?? resolved.teamId`. -/
def Assignee.id : Assignee → Nat
  | .person personId => personId
  | .team teamId => teamId

/-- The exceptions that end a firing. -/
inductive FireError where
  | targetMissing
  /-- `maybeSingle` found two users of the person. -/
  | multipleUsers
  | gate (e : GateError)
  | assigneesInvalid
  | watchersInvalid
  deriving DecidableEq, Repr

/-! ## Reads -/

/-- The ticket of a timer: a case if there is one with the id, else a work order. -/
def loadTicketForFire (db : SlaDb) (ticketId : Nat) : Option EntityRow :=
  (db.entities.get? (.case, ticketId)).or (db.entities.get? (.workOrder, ticketId))

def loadPolicyName (db : SlaDb) (policyId : Nat) : String :=
  ((db.policies.get? policyId).map SlaPolicyRow.name).getD "SLA policy"

def requesterOf (db : SlaDb) (ticketId : Nat) : Option Nat :=
  ((db.entities.get? (.case, ticketId)).bind EntityRow.requesterPersonId).or
    ((db.entities.get? (.workOrder, ticketId)).bind EntityRow.requesterPersonId)

def resolveTarget (dir : Directory) (db : SlaDb) (threshold : EscalationThreshold)
    (ticketId : Nat) : Option Assignee :=
  match threshold.targetType with
  | .user => threshold.targetId.map .person
  | .team => threshold.targetId.map .team
  | .managerOfRequester => ((requesterOf db ticketId).bind dir.managerOf).map .person

/-- The payload of the reassignment, or nothing when no field would change. -/
def assignmentFor (dir : Directory) (ticket : EntityRow) (resolved : Assignee)
    (reason : EscalationReason) : Except FireError (Option AssignmentPayload) :=
  let outgoing := ticket.assignedUserId.bind dir.personOfUser
  let watchers := outgoing.map fun person => (ticket.watchers ++ [person]).eraseDups
  match resolved with
  | .team teamId =>
      if ticket.assignedTeamId = some teamId then .ok none
      else .ok <| some
        { assignedTeamId := some (some teamId), assignedUserId := some none,
          watchers := watchers, reason := reason }
  | .person personId =>
      match dir.usersOfPerson personId with
      | [] => .ok none
      | [userId] =>
          if ticket.assignedUserId = some userId then .ok none
          else .ok <| some
            { assignedTeamId := none, assignedUserId := some (some userId),
              watchers := watchers, reason := reason }
      | _ => .error .multipleUsers

/-! ## Writes -/

/-- The row that `set_entity_assignment` leaves. -/
def AssignmentPayload.applyTo (payload : AssignmentPayload) (r : EntityRow) : EntityRow :=
  let team := payload.assignedTeamId.getD r.assignedTeamId
  let user := payload.assignedUserId.getD r.assignedUserId
  { r with
    assignedTeamId := team
    assignedUserId := user
    statusCategory :=
      if (team.isSome || user.isSome || r.assignedVendorId.isSome) && r.statusCategory == "new" then
        "assigned"
      else r.statusCategory
    watchers := (payload.watchers.map List.eraseDups).getD r.watchers }

/-- `set_entity_assignment`, one transaction. -/
def setEntityAssignment (dir : Directory) (db : SlaDb) (entity : EntityKind × Nat)
    (key : SlaCommandKey) (payload : AssignmentPayload) : Except FireError SlaDb :=
  match gate db.commandOperations key (.assignment payload) with
  | .error e => .error (.gate e)
  | .ok (.cached _) => .ok db
  | .ok .proceed =>
      let ops := begin db.commandOperations key (.assignment payload)
      match db.entities.get? entity with
      | none => .error .targetMissing
      | some row =>
          let row' := payload.applyTo row
          if !dir.assigneesInTenant row'.assignedTeamId row'.assignedUserId row'.assignedVendorId then
            .error .assigneesInvalid
          else if payload.watchers.any fun watchers => !dir.watchersValid watchers then
            .error .watchersInvalid
          else .ok
            { db with
              entities := db.entities.update (fun r => (r.kind, r.id) == entity)
                ⟨payload.applyTo, fun _ => rfl⟩
              commandOperations := finish ops key ()
              routingDecisions := db.routingDecisions ++
                [{ entity := entity
                   chosenTeamId := row'.assignedTeamId
                   chosenUserId := row'.assignedUserId
                   chosenVendorId := row'.assignedVendorId
                   reason := payload.reason }] }

/-- The courtesy copy by `update_entity_combined`. It is best effort: an error changes nothing. -/
def updateWatchers (dir : Directory) (db : SlaDb) (ticket : EntityRow) (key : CrossingKey)
    (payload : AssignmentPayload) : SlaDb :=
  match payload.watchers, ticket.assignedUserId.bind dir.personOfUser with
  | some watchers, some outgoing =>
      if ticket.watchers.contains outgoing then db
      else match gate db.commandOperations (.escalationWatchers key) (.watchers watchers) with
        | .ok .proceed =>
            if dir.watchersValid watchers then
              { db with
                entities := db.entities.update (fun r => (r.kind, r.id) == (ticket.kind, ticket.id))
                  ⟨fun r => { r with watchers := watchers }, fun _ => rfl⟩
                commandOperations := finish
                  (begin db.commandOperations (.escalationWatchers key) (.watchers watchers))
                  (.escalationWatchers key) () }
            else db
        | _ => db
  | _, _ => db

/-- Insert the crossing and say whether this call won the insert. -/
def writeCrossing (db : SlaDb) (crossing : Crossing) : SlaDb × Bool :=
  match db.crossings.insert? crossing with
  | some crossings => ({ db with crossings := crossings }, true)
  | none => (db, false)

def crossingOf (timer : SlaTimerRow) (threshold : EscalationThreshold) (ticket : EntityRow)
    (resolved : Assignee) : Crossing where
  crossed := crossingKey timer threshold
  ticketId := ticket.id
  action := threshold.action.recorded
  targetType := threshold.targetType
  targetId := some resolved.id

def skipCrossing (timer : SlaTimerRow) (threshold : EscalationThreshold) (ticket : EntityRow) :
    Crossing where
  crossed := crossingKey timer threshold
  ticketId := ticket.id
  action := .skippedNoManager
  targetType := threshold.targetType
  targetId := none

/-- The notification and the event of the call that recorded the crossing. -/
def announce (db : SlaDb) (crossing : Crossing) (reassigned : Bool) : SlaDb :=
  { db with
    crossedEvents := db.crossedEvents ++
      [{ crossed := crossing.crossed, action := crossing.action, targetType := crossing.targetType,
         targetId := crossing.targetId, reassigned := reassigned }] }

/-! ## The calls of one firing -/

/-- The next call of a firing, with what it has read. -/
inductive FirePc where
  | load
  | resolve (ticket : EntityRow)
  | skip (ticket : EntityRow)
  | probe (ticket : EntityRow) (resolved : Assignee)
  | plan (ticket : EntityRow) (resolved : Assignee)
  | assign (ticket : EntityRow) (resolved : Assignee) (payload : AssignmentPayload)
  | watch (ticket : EntityRow) (resolved : Assignee) (payload : AssignmentPayload)
  | cross (ticket : EntityRow) (resolved : Assignee) (reassigned : Bool)
  | announce (crossing : Crossing) (reassigned : Bool)
  | done
  deriving DecidableEq, Repr

section

variable (dir : Directory) (timer : SlaTimerRow) (threshold : EscalationThreshold)

/-- The command key of the reassignment: `buildSlaEscalationIdempotencyKey`. -/
def escalationKey : SlaCommandKey := .escalation (crossingKey timer threshold)

def escalationReason (db : SlaDb) : EscalationReason where
  policyName := loadPolicyName db timer.slaPolicyId
  atPercent := threshold.atPercent
  timerType := timer.timerType

/-- `probeCommandOperationSuccess`: the reassignment is committed already. -/
def probeSuccess (db : SlaDb) : Bool :=
  match db.commandOperations.get? (escalationKey timer threshold) with
  | some op => op.outcome == .success ()
  | none => false

def fireStep (db : SlaDb) : FirePc → Except FireError (SlaDb × FirePc)
  | .load =>
      match loadTicketForFire db timer.ticketId with
      | none => .error .targetMissing
      | some ticket => .ok (db, .resolve ticket)
  | .resolve ticket =>
      match resolveTarget dir db threshold ticket.id with
      | none => .ok (db, .skip ticket)
      | some resolved =>
          match threshold.action with
          | .notify => .ok (db, .cross ticket resolved false)
          | .escalate => .ok (db, .probe ticket resolved)
  | .skip ticket =>
      let crossing := skipCrossing timer threshold ticket
      let (db, won) := writeCrossing db crossing
      .ok (db, if won then .announce crossing false else .done)
  | .probe ticket resolved =>
      .ok (db, if probeSuccess timer threshold db then .cross ticket resolved true
        else .plan ticket resolved)
  | .plan ticket resolved =>
      match assignmentFor dir ticket resolved (escalationReason timer threshold db) with
      | .error e => .error e
      | .ok none => .ok (db, .cross ticket resolved false)
      | .ok (some payload) => .ok (db, .assign ticket resolved payload)
  | .assign ticket resolved payload =>
      match setEntityAssignment dir db (ticket.kind, ticket.id) (escalationKey timer threshold)
          payload with
      | .error e => .error e
      | .ok db => .ok (db, .watch ticket resolved payload)
  | .watch ticket resolved payload =>
      .ok (updateWatchers dir db ticket (crossingKey timer threshold) payload,
        .cross ticket resolved true)
  | .cross ticket resolved reassigned =>
      let crossing := crossingOf timer threshold ticket resolved
      let (db, won) := writeCrossing db crossing
      .ok (db, if won then .announce crossing reassigned else .done)
  | .announce crossing reassigned => .ok (Sla.announce db crossing reassigned, .done)
  | .done => .ok (db, .done)

/-! ## The firing in one piece -/

/-- Insert the crossing, and announce it when the insert was won. -/
def recordCrossing (db : SlaDb) (crossing : Crossing) (reassigned : Bool) : SlaDb :=
  let (db, won) := writeCrossing db crossing
  if won then Sla.announce db crossing reassigned else db

/-- `applyReassignment`: the database with the flag that it returns. -/
def applyReassignment (db : SlaDb) (ticket : EntityRow) (resolved : Assignee) :
    Except FireError (SlaDb × Bool) :=
  if probeSuccess timer threshold db then .ok (db, true)
  else match assignmentFor dir ticket resolved (escalationReason timer threshold db) with
    | .error e => .error e
    | .ok none => .ok (db, false)
    | .ok (some payload) =>
        match setEntityAssignment dir db (ticket.kind, ticket.id) (escalationKey timer threshold)
            payload with
        | .error e => .error e
        | .ok db => .ok (updateWatchers dir db ticket (crossingKey timer threshold) payload, true)

def fireThreshold (db : SlaDb) : Except FireError SlaDb :=
  match loadTicketForFire db timer.ticketId with
  | none => .error .targetMissing
  | some ticket =>
      match resolveTarget dir db threshold ticket.id with
      | none => .ok (recordCrossing db (skipCrossing timer threshold ticket) false)
      | some resolved =>
          let crossing := crossingOf timer threshold ticket resolved
          match threshold.action with
          | .notify => .ok (recordCrossing db crossing false)
          | .escalate =>
              match applyReassignment dir timer threshold db ticket resolved with
              | .error e => .error e
              | .ok (db, reassigned) => .ok (recordCrossing db crossing reassigned)

end

/-! ## What a firing keeps -/

/-- Every recorded command has succeeded: a failed one is rolled back with its marker. -/
def AllSucceeded (db : SlaDb) : Prop :=
  ∀ op ∈ db.commandOperations.rows, op.outcome = .success ()

/-- What no call of a tick undoes: timers and policies are only read by a firing, tickets keep
their requesters, and crossings and commands stay recorded. -/
structure Kept (db db' : SlaDb) : Prop where
  timers : db'.timers = db.timers
  policies : db'.policies = db.policies
  crossings : ∀ c ∈ db.crossings.rows, c ∈ db'.crossings.rows
  requesters : ∀ k, (db'.entities.get? k).map EntityRow.requesterPersonId =
    (db.entities.get? k).map EntityRow.requesterPersonId
  commands : ∀ k op, db.commandOperations.get? k = some op → db'.commandOperations.get? k = some op
  succeeded : AllSucceeded db → AllSucceeded db'

theorem Kept.refl (db : SlaDb) : Kept db db :=
  ⟨rfl, rfl, fun _ h => h, fun _ => rfl, fun _ _ h => h, fun h => h⟩

theorem Kept.trans {a b c : SlaDb} (h : Kept a b) (h' : Kept b c) : Kept a c where
  timers := h'.timers.trans h.timers
  policies := h'.policies.trans h.policies
  crossings := fun x hx => h'.crossings x (h.crossings x hx)
  requesters := fun k => (h'.requesters k).trans (h.requesters k)
  commands := fun k op hop => h'.commands k op (h.commands k op hop)
  succeeded := fun ha => h'.succeeded (h.succeeded ha)

theorem writeCrossing_kept (db : SlaDb) (crossing : Crossing) :
    Kept db (writeCrossing db crossing).1 := by
  unfold writeCrossing
  split
  · rename_i crossings hinsert
    refine ⟨rfl, rfl, ?_, fun _ => rfl, fun _ _ h => h, fun h => h⟩
    intro c hc
    simp only [(Table.insert?_eq_some hinsert).1]
    exact List.mem_append_left _ hc
  · exact .refl db

theorem announce_kept (db : SlaDb) (crossing : Crossing) (reassigned : Bool) :
    Kept db (announce db crossing reassigned) :=
  ⟨rfl, rfl, fun _ h => h, fun _ => rfl, fun _ _ h => h, fun h => h⟩

variable {db : SlaDb} {k : SlaCommandKey} {db' : SlaDb} {payload : AssignmentPayload}
  {entity : EntityKind × Nat}

theorem kept_of_command {payload : SlaPayload}
    (hfresh : db.commandOperations.get? k = none) (htimers : db'.timers = db.timers)
    (hpolicies : db'.policies = db.policies) (hcrossings : db'.crossings = db.crossings)
    (hrequesters : ∀ e, (db'.entities.get? e).map EntityRow.requesterPersonId =
      (db.entities.get? e).map EntityRow.requesterPersonId)
    (hops : db'.commandOperations = finish (begin db.commandOperations k payload) k ()) :
    Kept db db' := by
  have hget : ∀ k', db'.commandOperations.get? k' =
      if k' = k then some ⟨k, payload, .success ()⟩ else db.commandOperations.get? k' := by
    intro k'
    rw [hops]
    exact get?_finish_begin hfresh k'
  refine ⟨htimers, hpolicies, ?_, hrequesters, ?_, ?_⟩
  · intro c hc
    rwa [hcrossings]
  · intro k' op hop
    rw [hget, if_neg]
    · exact hop
    · intro hk
      rw [hk, hfresh] at hop
      cases hop
  · intro hsucceeded op hop
    have hop' := Table.get?_of_mem hop
    rw [hget] at hop'
    by_cases hk : key op = k
    · rw [if_pos hk] at hop'
      cases hop'
      rfl
    · rw [if_neg hk] at hop'
      exact hsucceeded op (Table.get?_eq_some.mp hop').1

theorem get?_update_requester (entities : Table EntityRow) (p : EntityRow → Bool)
    (f : Table.Assignment EntityRow)
    (hf : ∀ r, (f.apply r).requesterPersonId = r.requesterPersonId) (e : EntityKind × Nat) :
    ((entities.update p f).get? e).map EntityRow.requesterPersonId =
      (entities.get? e).map EntityRow.requesterPersonId := by
  rw [Table.get?_update, Option.map_map]
  congr 1
  funext r
  simp only [Function.comp_apply, Table.updated]
  split
  · exact hf r
  · rfl

theorem setEntityAssignment_cases {dir : Directory}
    (h : setEntityAssignment dir db entity k payload = .ok db') :
    (db' = db ∧ db.commandOperations.get? k ≠ none) ∨
      ∃ row, db.entities.get? entity = some row ∧ db.commandOperations.get? k = none ∧
        db' = { db with
          entities := db.entities.update (fun r => (r.kind, r.id) == entity)
            ⟨payload.applyTo, fun _ => rfl⟩
          commandOperations := finish (begin db.commandOperations k (.assignment payload)) k ()
          routingDecisions := db.routingDecisions ++
            [{ entity := entity
               chosenTeamId := (payload.applyTo row).assignedTeamId
               chosenUserId := (payload.applyTo row).assignedUserId
               chosenVendorId := (payload.applyTo row).assignedVendorId
               reason := payload.reason }] } := by
  unfold setEntityAssignment at h
  cases hgate : gate db.commandOperations k (.assignment payload) with
  | error e =>
    rw [hgate] at h
    cases h
  | ok answer =>
    rw [hgate] at h
    cases answer with
    | cached result =>
      cases h
      refine .inl ⟨rfl, ?_⟩
      intro hnone
      rw [gate_eq_proceed.mpr hnone] at hgate
      cases hgate
    | proceed =>
      have hfresh := gate_eq_proceed.mp hgate
      simp only at h
      cases hrow : db.entities.get? entity with
      | none =>
        simp only [hrow] at h
        cases h
      | some row =>
        simp only [hrow] at h
        split at h
        · cases h
        · split at h
          · cases h
          · cases h
            exact .inr ⟨row, rfl, hfresh, rfl⟩

theorem setEntityAssignment_kept {dir : Directory}
    (h : setEntityAssignment dir db entity k payload = .ok db') : Kept db db' := by
  rcases setEntityAssignment_cases h with ⟨rfl, _⟩ | ⟨row, _, hfresh, rfl⟩
  · exact .refl _
  · exact kept_of_command hfresh rfl rfl rfl
      (get?_update_requester _ _ _ fun _ => rfl) rfl

theorem updateWatchers_kept (dir : Directory) (db : SlaDb) (ticket : EntityRow) (k : CrossingKey)
    (payload : AssignmentPayload) : Kept db (updateWatchers dir db ticket k payload) := by
  unfold updateWatchers
  split
  · split
    · exact .refl db
    · split
      · rename_i hgate
        split
        · exact kept_of_command (gate_eq_proceed.mp hgate) rfl rfl rfl
            (get?_update_requester _ _ _ fun _ => rfl) rfl
        · exact .refl db
      · exact .refl db
  · exact .refl db

section

variable {dir : Directory} {timer : SlaTimerRow} {threshold : EscalationThreshold} {db db' : SlaDb}

theorem fireStep_kept {pc pc' : FirePc} (h : fireStep dir timer threshold db pc = .ok (db', pc')) :
    Kept db db' := by
  cases pc with
  | load =>
    simp only [fireStep] at h
    split at h
    · cases h
    · cases h
      exact .refl db
  | resolve ticket =>
    simp only [fireStep] at h
    split at h
    · cases h
      exact .refl db
    · split at h
      · cases h
        exact .refl db
      · cases h
        exact .refl db
  | skip ticket =>
    cases h
    exact writeCrossing_kept db _
  | probe ticket resolved =>
    cases h
    exact .refl db
  | plan ticket resolved =>
    simp only [fireStep] at h
    split at h
    · cases h
    · cases h
      exact .refl db
    · cases h
      exact .refl db
  | assign ticket resolved payload =>
    simp only [fireStep] at h
    split at h
    · cases h
    · rename_i hassign
      cases h
      exact setEntityAssignment_kept hassign
  | watch ticket resolved payload =>
    cases h
    exact updateWatchers_kept dir db ticket _ payload
  | cross ticket resolved reassigned =>
    cases h
    exact writeCrossing_kept db _
  | announce crossing reassigned =>
    cases h
    exact announce_kept db crossing reassigned
  | done =>
    cases h
    exact .refl db

theorem recordCrossing_kept (db : SlaDb) (crossing : Crossing) (reassigned : Bool) :
    Kept db (recordCrossing db crossing reassigned) := by
  have hwrite := writeCrossing_kept db crossing
  unfold recordCrossing
  split
  rename_i db' won hwritten
  rw [hwritten] at hwrite
  split
  · exact hwrite.trans (announce_kept db' crossing reassigned)
  · exact hwrite

theorem applyReassignment_kept {ticket : EntityRow} {resolved : Assignee} {reassigned : Bool}
    (h : applyReassignment dir timer threshold db ticket resolved = .ok (db', reassigned)) :
    Kept db db' := by
  unfold applyReassignment at h
  split at h
  · cases h
    exact .refl db
  · split at h
    · cases h
    · cases h
      exact .refl db
    · split at h
      · cases h
      · rename_i hassign
        cases h
        exact (setEntityAssignment_kept hassign).trans (updateWatchers_kept dir _ ticket _ _)

theorem fireThreshold_kept (h : fireThreshold dir timer threshold db = .ok db') : Kept db db' := by
  unfold fireThreshold at h
  split at h
  · cases h
  · split at h
    · cases h
      exact recordCrossing_kept db _ _
    · simp only at h
      split at h
      · cases h
        exact recordCrossing_kept db _ _
      · split at h
        · cases h
        · rename_i happly
          cases h
          exact (applyReassignment_kept happly).trans (recordCrossing_kept _ _ _)

end

/-! ## When a firing does not throw -/

/-- What `set_entity_assignment` checks of a payload against the row it finds. -/
def Directory.admits (dir : Directory) (row : EntityRow) (payload : AssignmentPayload) : Bool :=
  let row' := payload.applyTo row
  dir.assigneesInTenant row'.assignedTeamId row'.assignedUserId row'.assignedVendorId &&
    !payload.watchers.any fun watchers => !dir.watchersValid watchers

/-- The firing finds its ticket, the target of an escalation has one user at most, and
`set_entity_assignment` accepts the ticket as it then is. -/
def admitted (dir : Directory) (timer : SlaTimerRow) (threshold : EscalationThreshold)
    (db : SlaDb) : Bool :=
  match loadTicketForFire db timer.ticketId with
  | none => false
  | some ticket =>
      match threshold.action, resolveTarget dir db threshold ticket.id with
      | .escalate, some resolved =>
          probeSuccess timer threshold db ||
            match assignmentFor dir ticket resolved (escalationReason timer threshold db) with
            | .error _ => false
            | .ok none => true
            | .ok (some payload) => dir.admits ticket payload
      | _, _ => true

theorem loadTicketForFire_id {ticketId : Nat} {ticket : EntityRow}
    (h : loadTicketForFire db ticketId = some ticket) :
    ticket.id = ticketId ∧ db.entities.get? (ticket.kind, ticket.id) = some ticket := by
  unfold loadTicketForFire at h
  cases hcase : db.entities.get? (.case, ticketId) with
  | some row =>
    rw [hcase] at h
    cases h
    obtain ⟨_, hkey⟩ := Table.get?_eq_some.mp hcase
    obtain ⟨hkind, hid⟩ := Prod.mk.inj hkey
    exact ⟨hid, by rw [hkind, hid, hcase]⟩
  | none =>
    rw [hcase, Option.none_or] at h
    obtain ⟨_, hkey⟩ := Table.get?_eq_some.mp h
    obtain ⟨hkind, hid⟩ := Prod.mk.inj hkey
    exact ⟨hid, by rw [hkind, hid, h]⟩

theorem recordCrossing_recorded (db : SlaDb) (crossing : Crossing) (reassigned : Bool) :
    ((recordCrossing db crossing reassigned).crossings.get? crossing.crossed).isSome = true := by
  unfold recordCrossing writeCrossing
  cases hinsert : db.crossings.insert? crossing with
  | some crossings =>
    have hmem : crossing ∈ crossings.rows := by
      rw [(Table.insert?_eq_some hinsert).1]
      exact List.mem_append_right _ List.mem_cons_self
    have hget : crossings.get? crossing.crossed = some crossing :=
      Table.get?_eq_some.mpr ⟨hmem, rfl⟩
    simp only [if_true, announce, hget]
    rfl
  | none =>
    simp only [Bool.false_eq_true, if_false]
    rw [Option.isSome_iff_ne_none]
    intro hnone
    obtain ⟨_, hfresh, _⟩ := Table.insert?_of_fresh (r := crossing) hnone
    rw [hinsert] at hfresh
    cases hfresh

section

variable {dir : Directory} {timer : SlaTimerRow} {threshold : EscalationThreshold}

theorem probeSuccess_eq_false {db : SlaDb} (hsucceeded : AllSucceeded db)
    (h : probeSuccess timer threshold db = false) :
    db.commandOperations.get? (escalationKey timer threshold) = none := by
  rcases Option.eq_none_or_eq_some (db.commandOperations.get? (escalationKey timer threshold))
    with hget | ⟨op, hget⟩
  · exact hget
  · have hop := hsucceeded op (Table.get?_eq_some.mp hget).1
    simp [probeSuccess, hget, hop] at h

theorem fireThreshold_ok {db : SlaDb} (hsucceeded : AllSucceeded db)
    (hadmitted : admitted dir timer threshold db = true) :
    ∃ db', fireThreshold dir timer threshold db = .ok db' ∧
      (db'.crossings.get? (crossingKey timer threshold)).isSome = true := by
  unfold admitted at hadmitted
  cases hload : loadTicketForFire db timer.ticketId with
  | none => simp [hload] at hadmitted
  | some ticket =>
    obtain ⟨_, hrow⟩ := loadTicketForFire_id hload
    unfold fireThreshold
    simp only [hload] at hadmitted ⊢
    cases hresolved : resolveTarget dir db threshold ticket.id with
    | none => exact ⟨_, rfl, recordCrossing_recorded db (skipCrossing timer threshold ticket) false⟩
    | some resolved =>
      have hrecorded : ∀ db reassigned,
          ((recordCrossing db (crossingOf timer threshold ticket resolved)
            reassigned).crossings.get? (crossingKey timer threshold)).isSome = true :=
        fun db => recordCrossing_recorded db (crossingOf timer threshold ticket resolved)
      cases haction : threshold.action with
      | notify => exact ⟨_, rfl, hrecorded _ _⟩
      | escalate =>
        simp only [hresolved, haction, Bool.or_eq_true] at hadmitted
        simp only [applyReassignment]
        by_cases hprobe : probeSuccess timer threshold db = true
        · rw [if_pos hprobe]
          exact ⟨_, rfl, hrecorded _ _⟩
        · rw [if_neg hprobe]
          replace hadmitted := hadmitted.resolve_left hprobe
          cases hassign : assignmentFor dir ticket resolved
              (escalationReason timer threshold db) with
          | error e => simp [hassign] at hadmitted
          | ok next =>
            cases next with
            | none => exact ⟨_, rfl, hrecorded _ _⟩
            | some payload =>
              have hfresh := probeSuccess_eq_false hsucceeded (by simpa using hprobe)
              simp only [hassign, Directory.admits, Bool.and_eq_true, Bool.not_eq_true'] at hadmitted
              simp only [setEntityAssignment, gate_eq_proceed.mpr hfresh, hrow, hadmitted.1,
                hadmitted.2, Bool.not_true, Bool.false_eq_true, if_false]
              exact ⟨_, rfl, hrecorded _ _⟩

end

end Prequest.Sla
