import Prequest.Workflow.WaitLink

/-!
# Starting and resuming again

An instance is `active` while a call of the engine works on it. `startForTicket`
inserts it so, `resume` claims it so, and nothing sets it back: a call that
throws, or that returns because a row is missing, leaves it `active`. The two
resolvers of the links take their own claim back when `resume` throws, and the
outbox delivers a start again; both then find an instance that is not waiting.

* `neverStranded_iff`: the law of a run.
-/

namespace Prequest.Workflow

open Lib

/-- A row of `workflow_instances`, with the ticket it was started for. -/
structure FlowInstance where
  row : InstanceRow
  ticketId : Option Nat := none
  deriving DecidableEq, Repr

instance : Keyed FlowInstance Nat := ⟨fun i => i.row.id⟩

structure FlowDb where
  instances : Table FlowInstance
  links : Table LinkRow
  deriving DecidableEq

/-- How a call ends. A process may stop in the middle of one. -/
inductive Ending where
  | returned
  | threw
  | stopped
  deriving DecidableEq, Repr

/-! ## The calls -/

/-- `SET status, current_node_id, waiting_for WHERE id`. -/
def FlowDb.setRow (db : FlowDb) (row : InstanceRow) : FlowDb where
  instances := db.instances.update (fun i => i.row.id == row.id)
    { apply := fun i => { i with row := { row with id := i.row.id } }
      key_apply := fun _ => rfl }
  links := db.links

/-- `advance` on an instance of the database, for as many moves as the process lives. -/
def runChain (db : FlowDb) (g : Graph) (moves : Nat) (nodes : Nat → NodeAnswer) (row : InstanceRow)
    (fromNodeId : String) (edgeCondition : Option String) : FlowDb × Ending :=
  match advance g moves nodes ⟨row, []⟩ fromNodeId edgeCondition with
  | .returned s => (db.setRow s.instance', .returned)
  | .threw s _ => (db.setRow s.instance', .threw)
  | .running s => (db.setRow s.instance', .stopped)

/-- What a call of `resume` meets. -/
structure ResumeAnswer where
  /-- The claim fails; its error is not looked at. -/
  claimLost : Bool := false
  /-- The row has the id of its entity. -/
  hasEntity : Bool := true
  /-- The row of `workflow_definitions`. -/
  definition : Option Graph
  tenantFound : Bool := true
  nodes : Nat → NodeAnswer := fun _ => {}
  moves : Nat

/-- The row as the claim of `resume` leaves it, if the claim lands. -/
def claimedRow (db : FlowDb) (instanceId : Nat) (a : ResumeAnswer) : Option InstanceRow :=
  if a.claimLost then none
  else (db.instances.get? instanceId).bind fun i =>
    if i.row.status = .waiting then some { i.row with status := .active, waitingFor := none }
    else none

/-- `resume`. -/
def resume (db : FlowDb) (instanceId : Nat) (edgeCondition : Option String) (a : ResumeAnswer) :
    FlowDb × Ending :=
  match claimedRow db instanceId a with
  | none => (db, .returned)
  | some row =>
      let db := db.setRow row
      if !a.hasEntity then (db, .threw)
      else
        match a.definition with
        | none => (db, .returned)
        | some g =>
            if !a.tenantFound then (db, .returned)
            else runChain db g a.moves a.nodes row row.currentNodeId edgeCondition

inductive DefinitionRead where
  | published (g : Graph)
  | notPublished
  | missing

structure StartAnswer where
  ticketReadFails : Bool := false
  /-- The ticket and its `workflow_id`. -/
  ticket : Option (Option Nat)
  existingReadFails : Bool := false
  definition : DefinitionRead
  /-- The id that the insert draws. -/
  instanceId : Nat
  insertFails : Bool := false
  nodes : Nat → NodeAnswer := fun _ => {}
  moves : Nat

/-- The instance that `startForTicket` inserts, with its trigger. -/
def startedRow (db : FlowDb) (ticketId : Nat) (g : Graph) (a : StartAnswer) :
    Option (FlowDb × InstanceRow) :=
  (trigger? g).bind fun t =>
    if a.insertFails then none
    else
      let row : InstanceRow := { id := a.instanceId, status := .active, currentNodeId := t.id }
      (db.instances.insert? { row := row, ticketId := some ticketId }).map fun instances =>
        ({ db with instances := instances }, row)

/-- `startForTicket`; `null` is `none`. -/
def startForTicket (db : FlowDb) (ticketId : Nat) (a : StartAnswer) : FlowDb × Option Ending :=
  match a.definition with
  | .notPublished => (db, some .threw)
  | .missing => (db, none)
  | .published g =>
      if (trigger? g).isNone then (db, none)
      else
        match startedRow db ticketId g a with
        | none => (db, some .threw)
        | some (db, row) =>
            let r := runChain db g a.moves a.nodes row row.currentNodeId none
            (r.1, some r.2)

/-- The payload of `workflow.start_required`. -/
structure StartEvent where
  ticketId : Nat
  workflowDefinitionId : Nat

def isLiveFor (ticketId : Nat) (i : FlowInstance) : Bool :=
  i.ticketId == some ticketId && (i.row.status == .active || i.row.status == .waiting)

/-- The handler comes to `startForTicket`. -/
def reachesStart (db : FlowDb) (event : StartEvent) (a : StartAnswer) : Bool :=
  !a.ticketReadFails && a.ticket == some (some event.workflowDefinitionId) &&
    !a.existingReadFails && !db.instances.rows.any (isLiveFor event.ticketId)

/-- `WorkflowStartHandler.handle`, up to what the outbox does with its outcome. -/
def handleStart (db : FlowDb) (event : StartEvent) (a : StartAnswer) : FlowDb :=
  if reachesStart db event a then (startForTicket db event.ticketId a).1 else db

/-- What a resolver meets on one link. -/
structure LinkAnswer where
  claimFails : Bool := false
  parentReadFails : Bool := false
  /-- The sweeper finds the tenant of the link. -/
  tenantFound : Bool := true
  resume : ResumeAnswer
  unclaimFails : Bool := false

section

variable (db : FlowDb)

/-- The claim is taken back, when the resolver gets to it. -/
def takeBack (linkId : Nat) (a : LinkAnswer) : FlowDb :=
  if a.unclaimFails then db else { db with links := unclaim db.links linkId }

/-- The parent is resumed, and the claim taken back when this throws. -/
def resumeParent (link : LinkRow) (branch : String) (a : LinkAnswer) : FlowDb :=
  match resume db link.parentInstanceId (some branch) a.resume with
  | (db, .threw) => takeBack db link.id a
  | (db, _) => db

def claimedByWake (event : BookingEvent) (linkId now claimNow : Nat) (a : LinkAnswer) :
    Option LinkRow :=
  (db.links.get? linkId).filter fun link =>
    isWakeCandidate event now link && !a.claimFails && isWakeClaimable linkId claimNow link

/-- One link of a delivery in `runWake`. -/
def wakeLink (event : BookingEvent) (linkId now claimNow : Nat) (a : LinkAnswer) :
    FlowDb :=
  match claimedByWake db event linkId now claimNow a with
  | none => db
  | some link =>
      let db := { db with links := claimForWake db.links linkId claimNow }
      if a.parentReadFails then takeBack db linkId a
      else if (db.instances.get? link.parentInstanceId).isNone then db
      else resumeParent db link "condition_met" a

def claimedBySweep (linkId now claimNow : Nat) (a : LinkAnswer) : Option LinkRow :=
  (db.links.get? linkId).filter fun link =>
    isSweepCandidate now link && !a.claimFails && isTimeoutClaimable linkId claimNow link

/-- One link of a sweep: `processOne`. -/
def sweepLink (linkId now claimNow : Nat) (a : LinkAnswer) : FlowDb :=
  match claimedBySweep db linkId now claimNow a with
  | none => db
  | some link =>
      let db := { db with links := claimForTimeout db.links linkId claimNow }
      if a.parentReadFails then takeBack db linkId a
      else if (db.instances.get? link.parentInstanceId).isNone || !a.tenantFound then db
      else
        match link.onTimeoutBranch with
        | none => db
        | some branch => resumeParent db link branch a

end

/-! ## Runs -/

/-- A delivery, the work of a sweep or of a delivery on one link, or a call of `resume`. -/
inductive Attempt where
  | start (event : StartEvent) (a : StartAnswer)
  | wake (event : BookingEvent) (linkId now claimNow : Nat) (a : LinkAnswer)
  | sweep (linkId now claimNow : Nat) (a : LinkAnswer)
  | resume (instanceId : Nat) (edgeCondition : Option String) (a : ResumeAnswer)

def Attempt.apply (db : FlowDb) : Attempt → FlowDb
  | .start event a => handleStart db event a
  | .wake event linkId now claimNow a => wakeLink db event linkId now claimNow a
  | .sweep linkId now claimNow a => sweepLink db linkId now claimNow a
  | .resume instanceId edgeCondition a => (Workflow.resume db instanceId edgeCondition a).1

/-! ## The law -/

def InstanceStatus.IsTerminal (status : InstanceStatus) : Prop :=
  status = .completed ∨ status = .cancelled ∨ status = .failed

/-- The instance is neither terminal nor waiting, and no start and no link gets it any further. -/
structure IsStranded (db : FlowDb) (i : FlowInstance) : Prop where
  notTerminal : ¬i.row.status.IsTerminal
  notWaiting : i.row.status ≠ .waiting
  starts : ∀ event a, i.ticketId = some event.ticketId → handleStart db event a = db
  links : ∀ link ∈ db.links.rows, link.parentInstanceId = i.row.id →
    link.resolvedAt.isSome ∨ ∀ branch a, (resume db i.row.id branch a).1 = db

def NeverStranded (db : FlowDb) (attempts : List Attempt) : Prop :=
  ∀ before after, attempts = before ++ after →
    ∀ i ∈ (run Attempt.apply db before).instances.rows,
      ¬IsStranded (run Attempt.apply db before) i

/-! ## The condition -/

/-- The chain has a way on from each of its nodes, none of them fails, and the process lives on. -/
def RunsWhole (g : Graph) : Nat → (Nat → NodeAnswer) → String → Option String → Prop
  | 0, _, _, _ => False
  | moves + 1, nodes, fromNodeId, edgeCondition =>
      ∃ e n, enterNext g fromNodeId edgeCondition = some (e, n) ∧ ¬n.Fails (nodes 0) ∧
        ∀ decision, executeNode n (nodes 0) = .advance decision →
          RunsWhole g moves (fun i => nodes (i + 1)) n.id decision

/-- After its claim a call of `resume` finds what it reads, and its chain runs whole. -/
def ResumeAnswer.IsWhole (a : ResumeAnswer) (row : InstanceRow) (edgeCondition : Option String) :
    Prop :=
  a.hasEntity = true ∧ a.tenantFound = true ∧ ∃ g, a.definition = some g ∧
    RunsWhole g a.moves a.nodes row.currentNodeId edgeCondition

/-- If `resume` claims the instance, it is whole. -/
def ResumesWhole (db : FlowDb) (instanceId : Nat) (edgeCondition : Option String)
    (a : ResumeAnswer) : Prop :=
  ∀ row, claimedRow db instanceId a = some row → a.IsWhole row edgeCondition

/-- If the attempt takes an instance, nothing fails afterwards. -/
def Attempt.IsWhole (db : FlowDb) : Attempt → Prop
  | .start event a =>
      reachesStart db event a = true → ∀ g, a.definition = .published g →
        ∀ p, startedRow db event.ticketId g a = some p →
          RunsWhole g a.moves a.nodes p.2.currentNodeId none
  | .wake event linkId now claimNow a =>
      ∀ link, claimedByWake db event linkId now claimNow a = some link →
        a.parentReadFails = false →
          ResumesWhole db link.parentInstanceId (some "condition_met") a.resume
  | .sweep linkId now claimNow a =>
      ∀ link, claimedBySweep db linkId now claimNow a = some link →
        a.parentReadFails = false → a.tenantFound = true →
          ∀ branch, link.onTimeoutBranch = some branch →
            ResumesWhole db link.parentInstanceId (some branch) a.resume
  | .resume instanceId edgeCondition a => ResumesWhole db instanceId edgeCondition a

/-! ## One call -/

theorem advance_active_iff {g : Graph} (moves : Nat) {nodes : Nat → NodeAnswer} {s : RunState}
    {fromNodeId : String} {edgeCondition : Option String} (hactive : s.instance'.status = .active) :
    (advance g moves nodes s fromNodeId edgeCondition).state.instance'.status ≠ .active ↔
      RunsWhole g moves nodes fromNodeId edgeCondition := by
  induction moves generalizing nodes s fromNodeId edgeCondition with
  | zero =>
    simp only [RunsWhole, iff_false, not_not]
    exact hactive
  | succ moves ih =>
    rw [advance]
    unfold RunsWhole
    cases hnext : enterNext g fromNodeId edgeCondition with
    | none => simpa [RunResult.state] using hactive
    | some p =>
      obtain ⟨e, n⟩ := p
      have hfollow : (s.follow fromNodeId edgeCondition e n (nodes 0)).instance'.status
          = .active := by
        rw [RunState.follow_status, hactive]
      simp only [Option.some.injEq, Prod.mk.injEq, ↓existsAndEq, true_and,
        Node.fails_iff, not_not]
      cases heffect : executeNode n (nodes 0) with
      | advance decision =>
        simp only [NodeEffect.lands_advance, true_and, NodeEffect.advance.injEq]
        rw [ih hfollow]
        simp
      | write status waitingFor =>
        simp only [RunResult.state, RunState.write, NodeEffect.lands_write]
        cases hlost : (nodes 0).statusLost with
        | true => simpa using hfollow
        | false => simpa using (executeNode_write heffect).1
      | stay => simpa [RunResult.state] using hfollow
      | throws error => simpa [RunResult.state] using hfollow

def IsQuiet (db : FlowDb) : Prop := ∀ i ∈ db.instances.rows, i.row.status ≠ .active

variable {db : FlowDb} {row : InstanceRow}

theorem claimedRow_eq_some {instanceId : Nat} {a : ResumeAnswer}
    (h : claimedRow db instanceId a = some row) :
    row.status = .active ∧ ∃ i ∈ db.instances.rows, i.row.id = row.id := by
  unfold claimedRow at h
  split at h
  · cases h
  · obtain ⟨i, hi, hrow⟩ := Option.bind_eq_some_iff.mp h
    split at hrow
    · obtain rfl := Option.some.inj hrow
      exact ⟨rfl, i, (Table.get?_eq_some.mp hi).1, rfl⟩
    · cases hrow

theorem mem_setRow {i' : FlowInstance} : i' ∈ (db.setRow row).instances.rows ↔
      ∃ i ∈ db.instances.rows, i' = if i.row.id = row.id then { i with row := row } else i := by
  refine Table.mem_update.trans (exists_congr fun i => and_congr_right fun _ => ?_)
  by_cases hid : i.row.id = row.id
  · rw [Table.updated, if_pos (beq_iff_eq.mpr hid), if_pos hid]
    show { i with row := { row with id := i.row.id } } = i' ↔ _
    rw [hid]
    exact eq_comm
  · rw [Table.updated, if_neg (by simpa using hid), if_neg hid]
    exact eq_comm

theorem setRow_quiet (hothers : ∀ i ∈ db.instances.rows, i.row.id ≠ row.id → i.row.status ≠ .active)
    (hmem : ∃ i ∈ db.instances.rows, i.row.id = row.id) :
    IsQuiet (db.setRow row) ↔ row.status ≠ .active := by
  constructor
  · intro hquiet
    obtain ⟨i, hi, hid⟩ := hmem
    exact hquiet { i with row := row } (mem_setRow.mpr ⟨i, hi, (if_pos hid).symm⟩)
  · intro hrow i' hi'
    obtain ⟨i, hi, rfl⟩ := mem_setRow.mp hi'
    by_cases hid : i.row.id = row.id
    · rwa [if_pos hid]
    · rw [if_neg hid]
      exact hothers i hi hid

theorem runChain_quiet {g : Graph} {moves : Nat} {nodes : Nat → NodeAnswer}
    {fromNodeId : String} {edgeCondition : Option String}
    (hothers : ∀ i ∈ db.instances.rows, i.row.id ≠ row.id → i.row.status ≠ .active)
    (hmem : ∃ i ∈ db.instances.rows, i.row.id = row.id) (hactive : row.status = .active) :
    IsQuiet (runChain db g moves nodes row fromNodeId edgeCondition).1 ↔
      RunsWhole g moves nodes fromNodeId edgeCondition := by
  have hresult : (runChain db g moves nodes row fromNodeId edgeCondition).1
      = db.setRow (advance g moves nodes ⟨row, []⟩ fromNodeId edgeCondition).state.instance' := by
    unfold runChain
    split <;> rename_i heq <;> rw [heq] <;> rfl
  have hid : (advance g moves nodes ⟨row, []⟩ fromNodeId edgeCondition).state.instance'.id = row.id :=
    advance_id moves
  rw [hresult, setRow_quiet, advance_active_iff moves hactive]
  · rw [hid]
    exact hothers
  · rw [hid]
    exact hmem

theorem resume_quiet (h : IsQuiet db) (instanceId : Nat)
    (edgeCondition : Option String) (a : ResumeAnswer) :
    IsQuiet (resume db instanceId edgeCondition a).1 ↔
      ResumesWhole db instanceId edgeCondition a := by
  unfold resume ResumesWhole
  cases hclaim : claimedRow db instanceId a with
  | none =>
    simp only [reduceCtorEq, false_implies, implies_true, iff_true]
    exact h
  | some row =>
    obtain ⟨hactive, hmem⟩ := claimedRow_eq_some hclaim
    have hleft : ¬IsQuiet (db.setRow row) := by
      rw [setRow_quiet (fun i hi _ => h i hi) hmem]
      exact fun hne => hne hactive
    simp only [Option.some.injEq, forall_eq', ResumeAnswer.IsWhole]
    cases a.hasEntity with
    | false => simpa using hleft
    | true =>
      cases a.definition with
      | none => simpa using hleft
      | some g =>
        cases a.tenantFound with
        | false => simpa using hleft
        | true =>
          simp only [Bool.not_true, Bool.false_eq_true, if_false, true_and,
            Option.some.injEq, exists_eq_left']
          refine runChain_quiet ?_ ?_ hactive
          · intro i' hi' hne
            obtain ⟨i, hi, rfl⟩ := mem_setRow.mp hi'
            by_cases hid : i.row.id = row.id
            · rw [if_pos hid] at hne
              exact absurd rfl hne
            · rw [if_neg hid]
              exact h i hi
          · obtain ⟨i, hi, hid⟩ := hmem
            exact ⟨{ i with row := row }, mem_setRow.mpr ⟨i, hi, (if_pos hid).symm⟩, rfl⟩

theorem handleStart_quiet (h : IsQuiet db) (event : StartEvent) (a : StartAnswer) :
    IsQuiet (handleStart db event a) ↔ (Attempt.start event a).IsWhole db := by
  simp only [handleStart, Attempt.IsWhole]
  cases hreach : reachesStart db event a with
  | false => simpa using h
  | true =>
    simp only [if_true, true_implies]
    unfold startForTicket
    cases a.definition with
    | notPublished => simpa using h
    | missing => simpa using h
    | published g =>
      simp only [DefinitionRead.published.injEq, forall_eq']
      split
      · rename_i hnone
        have hstarted : startedRow db event.ticketId g a = none := by
          unfold startedRow
          rw [Option.isNone_iff_eq_none.mp hnone]
          rfl
        simpa [hstarted] using h
      · cases hstarted : startedRow db event.ticketId g a with
        | none => simpa using h
        | some p =>
          simp only [Option.some.injEq, forall_eq']
          unfold startedRow at hstarted
          obtain ⟨t, _, hrow⟩ := Option.bind_eq_some_iff.mp hstarted
          split at hrow
          · cases hrow
          · obtain ⟨instances, hinsert, rfl⟩ := Option.map_eq_some_iff.mp hrow
            obtain ⟨hrows, _⟩ := Table.insert?_eq_some hinsert
            have hactive : (InstanceRow.mk a.instanceId .active t.id none).status = .active := rfl
            refine runChain_quiet ?_ ?_ hactive
            · intro i hi hne
              simp only at hi
              rw [hrows] at hi
              rcases List.mem_append.mp hi with hold | hnew
              · exact h i hold
              · rw [List.mem_singleton.mp hnew] at hne
                exact absurd rfl hne
            · refine ⟨⟨{ id := a.instanceId, status := .active, currentNodeId := t.id },
                some event.ticketId⟩, ?_, rfl⟩
              simp only
              rw [hrows]
              exact List.mem_append_right _ (List.mem_singleton.mpr rfl)

@[simp] theorem takeBack_instances (db : FlowDb) (linkId : Nat) (a : LinkAnswer) :
    (takeBack db linkId a).instances = db.instances := by
  unfold takeBack
  split <;> rfl

theorem resumeParent_quiet (h : IsQuiet db) (links : Table LinkRow) (link : LinkRow)
    (branch : String) (a : LinkAnswer) :
    IsQuiet (resumeParent { db with links := links } link branch a) ↔
      ResumesWhole db link.parentInstanceId (some branch) a.resume := by
  have hlinks : IsQuiet { db with links := links } := h
  have hresume := resume_quiet hlinks link.parentInstanceId (some branch) a.resume
  refine Iff.trans ?_ hresume
  unfold resumeParent IsQuiet
  split
  · rename_i hthrew
    rw [takeBack_instances, hthrew]
  · rename_i hother
    rw [hother]

theorem resumesWhole_of_missing {instanceId : Nat}
    (h : (db.instances.get? instanceId).isNone = true) (edgeCondition : Option String)
    (a : ResumeAnswer) : ResumesWhole db instanceId edgeCondition a := by
  intro row hrow
  unfold claimedRow at hrow
  rw [Option.isNone_iff_eq_none.mp h] at hrow
  split at hrow <;> cases hrow

theorem wakeLink_quiet (h : IsQuiet db) (event : BookingEvent)
    (linkId now claimNow : Nat) (a : LinkAnswer) :
    IsQuiet (wakeLink db event linkId now claimNow a) ↔
      (Attempt.wake event linkId now claimNow a).IsWhole db := by
  simp only [wakeLink, Attempt.IsWhole]
  cases claimedByWake db event linkId now claimNow a with
  | none => simpa using h
  | some link =>
    simp only [Option.some.injEq, forall_eq']
    cases a.parentReadFails with
    | true =>
      simp only [if_true, Bool.true_eq_false, false_implies, iff_true]
      unfold IsQuiet
      rw [takeBack_instances]
      exact h
    | false =>
      simp only [Bool.false_eq_true, if_false, true_implies]
      split
      · rename_i hmissing
        exact iff_of_true h (resumesWhole_of_missing hmissing _ _)
      · exact resumeParent_quiet h _ link _ a

theorem sweepLink_quiet (h : IsQuiet db) (linkId now claimNow : Nat) (a : LinkAnswer) :
    IsQuiet (sweepLink db linkId now claimNow a) ↔
      (Attempt.sweep linkId now claimNow a).IsWhole db := by
  simp only [sweepLink, Attempt.IsWhole]
  cases claimedBySweep db linkId now claimNow a with
  | none => simpa using h
  | some link =>
    simp only [Option.some.injEq, forall_eq']
    cases a.parentReadFails with
    | true =>
      simp only [if_true, Bool.true_eq_false, false_implies, iff_true]
      unfold IsQuiet
      rw [takeBack_instances]
      exact h
    | false =>
      simp only [Bool.false_eq_true, if_false, true_implies]
      split
      · rename_i hmissing
        refine iff_of_true h fun htenant branch _ => ?_
        rw [htenant, Bool.not_true, Bool.or_false] at hmissing
        exact resumesWhole_of_missing hmissing _ _
      · rename_i hfound
        simp only [Bool.or_eq_true, Bool.not_eq_true', not_or, Bool.not_eq_false] at hfound
        simp only [hfound.2, true_implies]
        cases link.onTimeoutBranch with
        | none =>
          simp only [reduceCtorEq, false_implies, implies_true, iff_true]
          exact h
        | some branch =>
          simp only [Option.some.injEq, forall_eq']
          exact resumeParent_quiet h _ link branch a

theorem Attempt.apply_quiet (h : IsQuiet db) (attempt : Attempt) :
    IsQuiet (attempt.apply db) ↔ attempt.IsWhole db := by
  cases attempt with
  | start event a => exact handleStart_quiet h event a
  | wake event linkId now claimNow a => exact wakeLink_quiet h event linkId now claimNow a
  | sweep linkId now claimNow a => exact sweepLink_quiet h linkId now claimNow a
  | resume instanceId edgeCondition a => exact resume_quiet h instanceId edgeCondition a

/-! ## The law of runs -/

theorem isStranded_iff {i : FlowInstance} (hi : i ∈ db.instances.rows) :
    IsStranded db i ↔ i.row.status = .active := by
  constructor
  · intro h
    cases hstatus : i.row.status with
    | active => rfl
    | waiting => exact absurd hstatus h.notWaiting
    | completed => exact absurd (.inl hstatus) h.notTerminal
    | cancelled => exact absurd (.inr (.inl hstatus)) h.notTerminal
    | failed => exact absurd (.inr (.inr hstatus)) h.notTerminal
  · intro hactive
    constructor
    · unfold InstanceStatus.IsTerminal
      rw [hactive]
      decide
    · rw [hactive]
      decide
    · intro event a hticket
      have hlive : db.instances.rows.any (isLiveFor event.ticketId) = true := by
        refine List.any_eq_true.mpr ⟨i, hi, ?_⟩
        simp [isLiveFor, hticket, hactive]
      have hreach : reachesStart db event a = false := by
        simp [reachesStart, hlive]
      unfold handleStart
      rw [hreach]
      rfl
    · intro link _ _
      refine .inr fun branch a => ?_
      have hclaim : claimedRow db i.row.id a = none := by
        have hget : db.instances.get? i.row.id = some i := Table.get?_of_mem hi
        unfold claimedRow
        rw [hget, Option.bind_some, hactive]
        simp
      unfold resume
      rw [hclaim]

/-- The law of a run: no instance is left active before it, and every attempt is whole. -/
theorem neverStranded_iff (db : FlowDb) (attempts : List Attempt) :
    NeverStranded db attempts ↔
      IsQuiet db ∧ Guarded Attempt.apply (fun db attempt => attempt.IsWhole db) db attempts := by
  have hquiet : NeverStranded db attempts ↔
      ∀ before after, attempts = before ++ after → IsQuiet (run Attempt.apply db before) := by
    unfold NeverStranded IsQuiet
    refine forall_congr' fun before => forall_congr' fun after => forall_congr' fun _ =>
      forall_congr' fun i => forall_congr' fun hi => ?_
    rw [isStranded_iff hi]
  rw [hquiet]
  constructor
  · intro h
    refine ⟨h [] attempts rfl, guarded_iff.mpr ?_⟩
    intro before attempt after hsplit
    refine (Attempt.apply_quiet (h before (attempt :: after) hsplit) attempt).mp ?_
    have hnext := h (before ++ [attempt]) after (by rw [hsplit, List.append_assoc]; rfl)
    rwa [run_append] at hnext
  · rintro ⟨hstart, hguarded⟩ before after rfl
    refine Guarded.invariant (I := IsQuiet) ?_ hstart hguarded.take
    intro db attempt hdb hwhole
    exact (Attempt.apply_quiet hdb attempt).mpr hwhole

/-! ## A start that fails -/

def assignGraph : Graph where
  nodes :=
    [{ id := "t", type := .trigger },
      { id := "a", type := .assign, config := [("team_id", .scalar (.str "team"))] },
      { id := "e", type := .end' }]
  edges := [{ from' := "t", to' := "a" }, { from' := "a", to' := "e" }]

/-- The assignment fails once; the event that is delivered again finds the instance started. -/
theorem assignGraph_stranded :
    ¬ ∀ (db : FlowDb) (attempts : List Attempt), IsQuiet db → NeverStranded db attempts := by
  intro hlaw
  let failing : Attempt :=
    .start { ticketId := 1, workflowDefinitionId := 7 }
      { ticket := some (some 7), definition := .published assignGraph, instanceId := 1,
        nodes := fun _ => { ticket := some fun _ => none, error := fun _ => some "deadlock" }, moves := 3 }
  let i : FlowInstance := ⟨{ id := 1, status := .active, currentNodeId := "a" }, some 1⟩
  have hstuck := hlaw ⟨Table.empty, Table.empty⟩ [failing] (fun i hi => absurd hi List.not_mem_nil)
    [failing] [] rfl i (by decide)
  refine hstuck ((isStranded_iff (by decide)).mpr rfl)

end Prequest.Workflow
