import Prequest.Evaluation.Handler

/-!
# Where routing evaluation ends

* `routingLaw_of_sound`: sound runs meet the law.
-/

namespace Prequest.Evaluation

open Prequest.Lib

variable {ι : Type} [DecidableEq ι]

/-! ## The law -/

def RoutingState.last (s : RoutingState ι) : EventId := s.emitted - 1

def AssignsFor (env : Env) (s : RoutingState ι) (a : RoutingInput ι) (event : EventId) : Prop :=
  ∃ i t n evaluation, a = .write i ∧ s.worker i = .evaluated event t n evaluation ∧
    (step env s a).db.ticket.assignment ≠ s.db.ticket.assignment

/-- The step changes the assignment, and its handler read the case before a reassignment. -/
def Overwrites (env : Env) (s : RoutingState ι) (a : RoutingInput ι) : Prop :=
  ∃ i event t n evaluation, a = .write i ∧ s.worker i = .evaluated event t n evaluation ∧
    n < s.db.reassignments ∧ (step env s a).db.ticket.assignment ≠ s.db.ticket.assignment

/-- The resolver has an answer for the case as it is, and its target has the case. -/
def OnTarget (env : Env) (s : RoutingState ι) : Prop :=
  ∃ evaluation, env.evaluate (env.context s.db.ticket) = .ok evaluation ∧
    ∀ target, evaluation.target = some target → s.db.ticket.assignment = target.columns

/-- What the case shows once every event is handled. -/
structure Converged (env : Env) (s : RoutingState ι) : Prop where
  notPending : s.db.ticket.routingStatus ≠ .pending
  failed : s.db.ticket.routingStatus = .failed → 0 < s.emitted → s.committed s.last = false
  target : s.db.ticket.routingStatus ≠ .failed → 0 < s.emitted →
    s.db.reassignments = s.reassignedBefore → OnTarget env s

structure RoutingLaw (env : Env) (s : RoutingState ι) (as : List (RoutingInput ι)) : Prop where
  decidedOnce : ∀ pre post, as = pre ++ post → ∀ event,
    (run (step env) s pre).db.decisions.countP (DecisionRow.isSuccessOf event) ≤ 1
  assignedOnce : ∀ pre a mid b post event, as = pre ++ a :: (mid ++ b :: post) →
    AssignsFor env (run (step env) s pre) a event →
      ¬AssignsFor env (run (step env) s (pre ++ a :: mid)) b event
  notOverwritten : ∀ pre a post, as = pre ++ a :: post →
    ¬Overwrites env (run (step env) s pre) a
  converged : ∀ pre post, as = pre ++ post →
    (∀ event < (run (step env) s pre).emitted, event ∈ (run (step env) s pre).handled) →
      Converged env (run (step env) s pre)

/-! ## The ledger -/

variable {env : Env} {s : RoutingState ι}

variable {dir : Directory} {key : OperationKey} {p : AssignmentPayload} {db : CaseDb} {db' : CaseDb}

theorem Assigned.committed (h : Assigned dir key p db db') (k : OperationKey) :
    db'.committed k = (decide (k = key) || db.committed k) := by
  obtain ⟨result, hoperations⟩ := h.operations
  unfold CaseDb.committed
  rw [hoperations]
  by_cases hk : k = key <;> simp [hk]

theorem Assigned.committed_before (h : Assigned dir key p db db') : db.committed key = false := by
  unfold CaseDb.committed
  rw [h.fresh]

variable {event : EventId} {t : TicketRow} {evaluation : RoutingEvaluation} {a : RoutingInput ι}
  {target : AssignmentTarget}

theorem Assigned.decided
    (h : Assigned dir (.routingEvaluation event) (rpcPayload env event t evaluation) db db') :
    ∃ row, db'.decisions = db.decisions ++ [row] ∧ row.isReassignment = false ∧
      ∀ e, row.isSuccessOf e = (event == e) :=
  ⟨_, h.decisions, rfl, fun _ => rfl⟩

/-- The records and the decisions of a run. -/
structure Ledger (env : Env) (s : RoutingState ι) : Prop where
  known : ∀ event ∈ s.handled, event < s.emitted
  worked : ∀ i event, (s.worker i).event? = some event → event < s.emitted
  recorded : ∀ event, s.committed event = true → event < s.emitted
  evaluated : ∀ i event t n evaluation, s.worker i = .evaluated event t n evaluation →
    env.evaluate (env.context t) = .ok evaluation
  decided : ∀ event,
    s.db.decisions.countP (DecisionRow.isSuccessOf event) ≤ (s.committed event).toNat
  counted : s.reassignedBefore ≤ s.db.reassignments

omit [DecidableEq ι] in
theorem Ledger.start (ticket : TicketRow) (approvalOpen : Bool) :
    Ledger env (RoutingState.start ticket approvalOpen : RoutingState ι) where
  known _ h := nomatch h
  worked _ _ h := nomatch h
  recorded _ h := nomatch h
  evaluated _ _ _ _ _ h := nomatch h
  decided _ := Nat.zero_le _
  counted := Nat.zero_le _

theorem Ledger.leave (h : Ledger env s) {i : ι} {d : Delivery}
    (hevent : ∀ e, d.event? = some e → e < s.emitted)
    (hevaluated : ∀ e t n evaluation, d = .evaluated e t n evaluation →
      env.evaluate (env.context t) = .ok evaluation) : Ledger env (s.leave i d) where
  known := h.known
  recorded := h.recorded
  decided := h.decided
  counted := h.counted
  worked j e he := by
    change (Function.update s.worker i d j).event? = some e at he
    rw [Function.update_apply] at he
    split at he
    · exact hevent e he
    · exact h.worked j e he
  evaluated j e t n evaluation hj := by
    change Function.update s.worker i d j = _ at hj
    rw [Function.update_apply] at hj
    split at hj
    · exact hevaluated e t n evaluation hj
    · exact h.evaluated j e t n evaluation hj

theorem Ledger.ack (h : Ledger env s) {i : ι} (hevent : event < s.emitted) :
    Ledger env (s.ack i event) := by
  have hleft := h.leave (i := i) (d := .idle) (fun _ h => nomatch h) fun _ _ _ _ h => nomatch h
  refine ⟨?_, hleft.worked, hleft.recorded, hleft.evaluated, hleft.decided, hleft.counted⟩
  intro e he
  rcases List.mem_cons.mp he with rfl | he
  · exact hevent
  · exact h.known e he

omit [DecidableEq ι] in
theorem Ledger.withDb (h : Ledger env s)
    (hrecorded : ∀ event, db.committed (.routingEvaluation event) = true → event < s.emitted)
    (hdecided : ∀ event, db.decisions.countP (DecisionRow.isSuccessOf event) ≤
      (db.committed (.routingEvaluation event)).toNat)
    (hcounted : s.db.reassignments ≤ db.reassignments) : Ledger env { s with db := db } where
  known := h.known
  worked := h.worked
  recorded := hrecorded
  evaluated := h.evaluated
  decided := hdecided
  counted := Nat.le_trans h.counted hcounted

theorem Ledger.step (h : Ledger env s) (a : RoutingInput ι) : Ledger env (step env s a) := by
  have hstep := step_cases env s a
  generalize Evaluation.step env s a = s' at hstep ⊢
  cases hstep with
  | same => exact h
  | status category approvalOpen =>
    exact ⟨h.known, h.worked, h.recorded, h.evaluated, h.decided, h.counted⟩
  | emitted t approvalOpen hassignment hstatus =>
    exact ⟨fun e he => Nat.lt_succ_of_lt (h.known e he),
      fun i e he => Nat.lt_succ_of_lt (h.worked i e he),
      fun e he => Nat.lt_succ_of_lt (h.recorded e he), h.evaluated, h.decided, Nat.le_refl _⟩
  | reassigned clientRequestId p db row hassigned hclear hrow hdecisions =>
    have hcommitted : ∀ e, db.committed (.routingEvaluation e) = s.committed e := by
      intro e
      rw [hassigned.committed]
      rfl
    refine h.withDb ?_ ?_ ?_
    · intro e he
      exact h.recorded e (hcommitted e ▸ he)
    · intro e
      have hnot : row.isSuccessOf e = false := by
        unfold DecisionRow.isReassignment at hrow
        unfold DecisionRow.isSuccessOf
        split <;> simp_all
      rw [hdecisions, List.countP_append, hcommitted, List.countP_singleton, hnot]
      exact h.decided e
    · rw [CaseDb.reassignments, CaseDb.reassignments, hdecisions, List.countP_append]
      omega
  | moved i d hevent hevaluated hrecording =>
    refine h.leave ?_ hevaluated
    intro e he
    rcases hevent e he with hlt | hsame
    · exact hlt
    · exact h.worked i e hsame
  | acked i event hcommitted => exact h.ack (h.recorded event hcommitted)
  | wrote i event t n evaluation db hworker hassigned =>
    have hevent : event < s.emitted := h.worked i event (by rw [hworker]; rfl)
    obtain ⟨row, hdecisions, hreassignment, hsuccess⟩ := hassigned.decided
    have hdb : Ledger env { s with db := db } := by
      refine h.withDb ?_ ?_ ?_
      · intro e he
        rw [hassigned.committed] at he
        rcases Bool.or_eq_true_iff.mp he with hsame | hbefore
        · obtain rfl : e = event := by simpa using hsame
          exact hevent
        · exact h.recorded e hbefore
      · intro e
        have hdecided := h.decided e
        rw [hdecisions, List.countP_append, List.countP_singleton, hsuccess, hassigned.committed]
        by_cases he : event = e
        · subst he
          rw [RoutingState.committed, hassigned.committed_before] at hdecided
          simpa using hdecided
        · simpa [he, Ne.symm he, RoutingState.committed] using hdecided
      · rw [CaseDb.reassignments, CaseDb.reassignments, hdecisions, List.countP_append]
        omega
    exact hdb.ack hevent
  | marked i event reason hworker =>
    have hleft : Ledger env (s.leave i (.recording event reason)) := by
      refine h.leave ?_ fun _ _ _ _ h => nomatch h
      intro e he
      exact h.worked i e (by rw [hworker]; exact he)
    exact ⟨hleft.known, hleft.worked, hleft.recorded, hleft.evaluated, hleft.decided,
      hleft.counted⟩
  | markLost i event reason hworker =>
    refine h.leave ?_ fun _ _ _ _ h => nomatch h
    intro e he
    exact h.worked i e (by rw [hworker]; exact he)
  | recorded i event reason rows hworker hrows =>
    have hevent : event < s.emitted := h.worked i event (by rw [hworker]; rfl)
    have hdb : Ledger env { s with db := { s.db with decisions := s.db.decisions ++ rows } } := by
      refine h.withDb h.recorded ?_ ?_
      · intro e
        show (s.db.decisions ++ rows).countP _ ≤ _
        rw [List.countP_append]
        have hnone : rows.countP (DecisionRow.isSuccessOf e) = 0 := by
          rcases hrows with rfl | rfl <;> rfl
        rw [hnone]
        exact h.decided e
      · show _ ≤ (s.db.decisions ++ rows).countP _
        rw [List.countP_append]
        exact Nat.le_add_right _ _
    exact hdb.ack hevent

theorem committed_step (h : s.committed event = true) (a : RoutingInput ι) :
    (step env s a).committed event = true := by
  have hstep := step_cases env s a
  generalize Evaluation.step env s a = s' at hstep ⊢
  cases hstep with
  | same | status | emitted | moved | acked | marked | markLost | recorded => exact h
  | reassigned clientRequestId p db row hassigned hclear hrow hdecisions =>
    show db.committed _ = true
    rw [hassigned.committed, show s.db.committed _ = true from h, Bool.or_true]
  | wrote i e t n evaluation db hworker hassigned =>
    show db.committed _ = true
    rw [hassigned.committed, show s.db.committed _ = true from h, Bool.or_true]

theorem assigned_of_changed {i : ι} {n : Nat}
    (hworker : s.worker i = .evaluated event t n evaluation)
    (hchanged : (step env s (.write i)).db.ticket.assignment ≠ s.db.ticket.assignment) :
    Assigned env.directory (.routingEvaluation event) (rpcPayload env event t evaluation) s.db
      (step env s (.write i)).db := by
  change (write env i s).db.ticket.assignment ≠ _ at hchanged
  show Assigned _ _ _ _ (write env i s).db
  rcases write_cases env hworker with ⟨message, hwrite⟩ | ⟨_, hwrite⟩ | ⟨db, hassigned, hwrite⟩
  · rw [hwrite] at hchanged
    exact absurd rfl hchanged
  · rw [hwrite] at hchanged
    exact absurd rfl hchanged
  · rw [hwrite]
    exact hassigned

theorem AssignsFor.commits (h : AssignsFor env s a event) :
    s.committed event = false ∧ (step env s a).committed event = true := by
  obtain ⟨i, t, n, evaluation, rfl, hworker, hchanged⟩ := h
  have hassigned := assigned_of_changed hworker hchanged
  refine ⟨hassigned.committed_before, ?_⟩
  show (step env s (.write i)).db.committed _ = true
  rw [hassigned.committed]
  simp

/-! ## The condition -/

/-- The last event has not been decided, handled or recorded as a failure. -/
def RoutingState.LastOpen (s : RoutingState ι) : Prop :=
  0 < s.emitted ∧ s.committed s.last = false ∧ s.last ∉ s.handled ∧
    ∀ i, (s.worker i).isRecording s.last = false

/-- The answer is still the one for the case, or nothing depends on it. -/
def UpToDate (env : Env) (s : RoutingState ι) (event : EventId) (t : TicketRow)
    (evaluation : RoutingEvaluation) : Prop :=
  (event ≠ s.last ∧ s.LastOpen) ∨ s.reassignedBefore ≠ s.db.reassignments ∨
    (env.context t = env.context s.db.ticket ∧
      evaluation.target.all (fun target => targetDiffers evaluation t ||
        targetMatchesCurrent target s.db.ticket.assignment) = true)

/-- The payload passes the checks of the command. -/
def accepted (env : Env) (s : RoutingState ι) (p : AssignmentPayload) : Bool :=
  (validateAssigneesInTenant env.directory (p.next s.db.ticket)).isOk &&
    (validateDecision env.directory p.decision).isOk

omit [DecidableEq ι] in
theorem Assigned.accepted (h : Assigned env.directory key p s.db db) : accepted env s p = true := by
  unfold Evaluation.accepted
  rw [h.assignees, h.decision]
  rfl

/-- Nothing stands between the read of a case and the write, and no failure mark comes after a
success of the last event or is lost. -/
def Sound (env : Env) (s : RoutingState ι) : RoutingInput ι → Prop
  | .write i =>
      match s.worker i with
      | .evaluated event t n evaluation =>
          s.committed event = false → accepted env s (rpcPayload env event t evaluation) = true →
            (targetDiffers evaluation t = true → n = s.db.reassignments) ∧
              UpToDate env s event t evaluation
      | _ => True
  | .mark i updated =>
      match s.worker i with
      | .failing event _ =>
          if updated then s.committed s.last = false
          else event ≠ s.last ∨ s.committed event = true ∨ s.db.ticket.routingStatus = .failed
      | _ => True
  | _ => True

/-! ## What sound steps keep -/

theorem targetMatchesCurrent_iff {a : Assignment} :
    targetMatchesCurrent target a = true ↔ a = target.columns := by
  obtain ⟨team, user, vendor⟩ := a
  cases target <;> simp [targetMatchesCurrent, AssignmentTarget.columns] <;> tauto

theorem RoutingState.LastOpen.leave (h : s.LastOpen) {i : ι} {d : Delivery}
    (hrecording : d.isRecording s.last = false) : (s.leave i d).LastOpen := by
  obtain ⟨hpos, hcommitted, hhandled, hworkers⟩ := h
  refine ⟨hpos, hcommitted, hhandled, fun j => ?_⟩
  show (Function.update s.worker i d j).isRecording s.last = false
  rw [Function.update_apply]
  split
  · exact hrecording
  · exact hworkers j

theorem RoutingState.LastOpen.ack (h : s.LastOpen) {i : ι}
    (hne : event ≠ s.last) : (s.ack i event).LastOpen := by
  obtain ⟨hpos, hcommitted, hhandled, hworkers⟩ := h.leave (i := i) (d := .idle) rfl
  refine ⟨hpos, hcommitted, ?_, hworkers⟩
  intro hmem
  rcases List.mem_cons.mp hmem with hsame | hmem
  · exact hne hsame.symm
  · exact hhandled hmem

omit [DecidableEq ι] in
theorem RoutingState.LastOpen.withDb (h : s.LastOpen)
    (hcommitted : db.committed (.routingEvaluation s.last) = false) :
    { s with db := db }.LastOpen :=
  ⟨h.1, hcommitted, h.2.2⟩

omit [DecidableEq ι] in
theorem lastOpen_emit (h : Ledger env s) (t : TicketRow) (approvalOpen : Bool) :
    ({ s.setTicket t with approvalOpen := approvalOpen }.emit).LastOpen := by
  refine ⟨Nat.succ_pos _, ?_, ?_, fun i => ?_⟩
  · apply Bool.eq_false_iff.mpr
    intro hcommitted
    exact Nat.lt_irrefl _ (h.recorded _ hcommitted)
  · intro hmem
    exact Nat.lt_irrefl _ (h.known _ hmem)
  · show (s.worker i).isRecording s.emitted = false
    have hworked := h.worked i
    cases hi : s.worker i with
    | recording e reason =>
      rw [hi] at hworked
      have hlt : e < s.emitted := hworked e rfl
      show (e == s.emitted) = false
      exact beq_eq_false_iff_ne.mpr (Nat.ne_of_lt hlt)
    | _ => rfl

structure Converging (env : Env) (s : RoutingState ι) : Prop where
  pending : s.db.ticket.routingStatus = .pending → s.LastOpen
  failed : s.db.ticket.routingStatus = .failed → s.committed s.last = false
  target : 0 < s.emitted → s.reassignedBefore ≠ s.db.reassignments ∨ OnTarget env s ∨
    s.LastOpen ∨ (s.committed s.last = false ∧ s.db.ticket.routingStatus = .failed)

omit [DecidableEq ι] in
theorem Converging.start (ticket : TicketRow) (approvalOpen : Bool) :
    Converging env (RoutingState.start ticket approvalOpen : RoutingState ι) where
  pending h := nomatch h
  failed h := nomatch h
  target h := nomatch h

omit [DecidableEq ι] in
theorem Converging.keep (h : Converging env s) {s' : RoutingState ι}
    (hticket : s'.db.ticket = s.db.ticket) (hcommitted : s'.committed s.last = s.committed s.last)
    (hemitted : s'.emitted = s.emitted) (hbefore : s'.reassignedBefore = s.reassignedBefore)
    (hcount : s'.db.reassignments = s.db.reassignments)
    (hopen : s.LastOpen → s'.LastOpen ∨
      s.committed s.last = false ∧ s.db.ticket.routingStatus = .failed) :
    Converging env s' := by
  have hlast : s'.last = s.last := congrArg (· - 1) hemitted
  constructor
  · intro hstatus
    rw [hticket] at hstatus
    rcases hopen (h.pending hstatus) with hopen | ⟨_, hfailed⟩
    · exact hopen
    · rw [hstatus] at hfailed
      cases hfailed
  · intro hstatus
    rw [hlast, hcommitted]
    exact h.failed (hticket ▸ hstatus)
  · intro hpos
    rw [hlast, hcommitted, hticket, hbefore, hcount]
    rcases h.target (hemitted ▸ hpos) with hreassigned | htarget | hlastOpen | hfailed
    · exact .inl hreassigned
    · refine .inr (.inl ?_)
      unfold OnTarget
      rw [hticket]
      exact htarget
    · rcases hopen hlastOpen with hopen | hfailed
      · exact .inr (.inr (.inl hopen))
      · exact .inr (.inr (.inr hfailed))
    · exact .inr (.inr (.inr hfailed))

omit [DecidableEq ι] in
theorem Assigned.onTarget
    (h : Assigned env.directory (.routingEvaluation event) (rpcPayload env event t evaluation)
      s.db db) (htarget : evaluation.target = some target)
    (hcarries : (targetDiffers evaluation t ||
      targetMatchesCurrent target s.db.ticket.assignment) = true) :
    db.ticket.assignment = target.columns := by
  rw [h.assignment, AssignmentPayload.next, rpcPayload]
  cases hdiffers : targetDiffers evaluation t with
  | true =>
    rw [htarget]
    rfl
  | false =>
    rw [hdiffers, Bool.false_or] at hcarries
    exact targetMatchesCurrent_iff.mp hcarries

theorem Converging.step (hledger : Ledger env s) (h : Converging env s) (hsound : Sound env s a) :
    Converging env (step env s a) := by
  have hstep := step_cases env s a
  generalize Evaluation.step env s a = s' at hstep ⊢
  cases hstep with
  | same => exact h
  | status category approvalOpen => exact ⟨h.pending, h.failed, h.target⟩
  | emitted t approvalOpen hassignment hstatus =>
    have hopen := lastOpen_emit hledger t approvalOpen
    exact ⟨fun _ => hopen, fun _ => hopen.2.1, fun _ => .inr (.inr (.inl hopen))⟩
  | reassigned clientRequestId p db row hassigned hclear hrow hdecisions =>
    have hcommitted : db.committed (.routingEvaluation s.last) = s.committed s.last := by
      rw [hassigned.committed]
      rfl
    have hstatus : db.ticket.routingStatus = s.db.ticket.routingStatus := by
      rw [hassigned.routingStatus, hclear]
      rfl
    refine ⟨?_, ?_, fun _ => .inl ?_⟩
    · intro hpending
      have hopen := h.pending (hstatus ▸ hpending)
      exact hopen.withDb (hcommitted.trans hopen.2.1)
    · intro hfailed
      exact hcommitted.trans (h.failed (hstatus ▸ hfailed))
    · show s.reassignedBefore ≠ db.decisions.countP _
      have hcounted := hledger.counted
      rw [CaseDb.reassignments] at hcounted
      rw [hdecisions, List.countP_append, List.countP_singleton, if_pos hrow]
      omega
  | moved i d hevent hevaluated hrecording =>
    exact h.keep rfl rfl rfl rfl rfl fun hopen => .inl (hopen.leave (hrecording _))
  | acked i event hcommitted =>
    refine h.keep rfl rfl rfl rfl rfl fun hopen => .inl (hopen.ack ?_)
    rintro rfl
    rw [hopen.2.1] at hcommitted
    cases hcommitted
  | wrote i event t n evaluation db hworker hassigned =>
    have hidle : db.ticket.routingStatus = .idle := by
      rw [hassigned.routingStatus]
      rfl
    obtain ⟨row, hdecisions, hreassignment, _⟩ := hassigned.decided
    have hcount : db.reassignments = s.db.reassignments := by
      rw [CaseDb.reassignments, hdecisions, List.countP_append, List.countP_singleton,
        hreassignment]
      rfl
    have hcontext : env.context db.ticket = env.context s.db.ticket := by
      unfold Env.context
      rw [hassigned.ticketTypeId, hassigned.priority, hassigned.assetId, hassigned.locationId]
    simp only [Sound, hworker] at hsound
    obtain ⟨_, hdate⟩ := hsound hassigned.committed_before hassigned.accepted
    refine ⟨fun hstatus => ?_, fun hstatus => ?_, fun _ => ?_⟩
    · cases hidle.symm.trans hstatus
    · cases hidle.symm.trans hstatus
    · rcases hdate with ⟨hne, hopen⟩ | hreassigned | ⟨hsame, hcarries⟩
      · refine .inr (.inr (.inl (RoutingState.LastOpen.ack (hopen.withDb ?_) hne)))
        rw [hassigned.committed, show s.db.committed _ = false from hopen.2.1]
        simpa using Ne.symm hne
      · left
        show s.reassignedBefore ≠ db.reassignments
        rw [hcount]
        exact hreassigned
      · refine .inr (.inl ⟨evaluation, ?_, ?_⟩)
        · show env.evaluate (env.context db.ticket) = _
          rw [hcontext, ← hsame]
          exact hledger.evaluated i event t n evaluation hworker
        · intro target htarget
          rw [htarget] at hcarries
          exact hassigned.onTarget htarget hcarries
  | marked i event reason hworker =>
    simp only [Sound, hworker, if_true] at hsound
    refine ⟨fun hstatus => ?_, fun _ => hsound, fun _ => .inr (.inr (.inr ⟨hsound, rfl⟩))⟩
    cases hstatus
  | markLost i event reason hworker =>
    simp only [Sound, hworker, Bool.false_eq_true, if_false] at hsound
    refine h.keep rfl rfl rfl rfl rfl fun hopen => ?_
    by_cases hlast : event = s.last
    · right
      refine ⟨hopen.2.1, ?_⟩
      rcases hsound with hne | hcommitted | hfailed
      · exact absurd hlast hne
      · rw [hlast, hopen.2.1] at hcommitted
        cases hcommitted
      · exact hfailed
    · left
      refine hopen.leave ?_
      show (event == s.last) = false
      exact beq_eq_false_iff_ne.mpr hlast
  | recorded i event reason rows hworker hrows =>
    refine h.keep rfl rfl rfl rfl ?_ fun hopen => .inl ?_
    · show (s.db.decisions ++ rows).countP _ = _
      rw [List.countP_append]
      rcases hrows with rfl | rfl <;> rfl
    · refine RoutingState.LastOpen.ack (hopen.withDb hopen.2.1) ?_
      rintro rfl
      have hrecording := hopen.2.2.2 i
      rw [hworker] at hrecording
      simp [Delivery.isRecording] at hrecording

/-! ## The law of a sound run -/

omit [DecidableEq ι] in
theorem Converging.converged (h : Converging env s)
    (hall : ∀ event < s.emitted, event ∈ s.handled) : Converged env s := by
  have hclosed : ¬s.LastOpen := by
    rintro ⟨hpos, _, hhandled, _⟩
    exact hhandled (hall s.last (Nat.sub_lt hpos Nat.one_pos))
  refine ⟨fun hstatus => hclosed (h.pending hstatus), fun hstatus _ => h.failed hstatus, ?_⟩
  intro hstatus hpos hcount
  rcases h.target hpos with hreassigned | htarget | hopen | ⟨_, hfailed⟩
  · exact absurd hcount.symm hreassigned
  · exact htarget
  · exact absurd hopen hclosed
  · exact absurd hfailed hstatus

theorem not_overwrites (hsound : Sound env s a) : ¬Overwrites env s a := by
  rintro ⟨i, event, t, n, evaluation, rfl, hworker, hlt, hchanged⟩
  have hassigned := assigned_of_changed hworker hchanged
  simp only [Sound, hworker] at hsound
  obtain ⟨hkeeps, _⟩ := hsound hassigned.committed_before hassigned.accepted
  cases hdiffers : targetDiffers evaluation t with
  | true =>
    have := hkeeps hdiffers
    omega
  | false =>
    refine hchanged ?_
    rw [hassigned.assignment, AssignmentPayload.next, rpcPayload, hdiffers]
    rfl

theorem ledger_run (ticket : TicketRow) (approvalOpen : Bool) (as : List (RoutingInput ι)) :
    Ledger env (run (step env) (RoutingState.start ticket approvalOpen) as) :=
  run_invariant (I := Ledger env) (fun _ a h => h.step a) (Ledger.start ticket approvalOpen) as

/-- Routing evaluation meets its law in every run whose writes are up to date and whose failure
marks are neither late nor lost. -/
theorem routingLaw_of_sound (env : Env) (ticket : TicketRow) (approvalOpen : Bool)
    (as : List (RoutingInput ι))
    (h : Guarded (step env) (Sound env) (RoutingState.start ticket approvalOpen) as) :
    RoutingLaw env (RoutingState.start ticket approvalOpen) as where
  decidedOnce := by
    rintro pre post rfl event
    refine Nat.le_trans ((ledger_run ticket approvalOpen pre).decided event) ?_
    exact Bool.toNat_le _
  assignedOnce := by
    rintro pre a mid b post event rfl hfirst hsecond
    have hcommitted := run_invariant (f := step env) (I := fun s => s.committed event = true)
      (fun _ c hc => committed_step hc c) hfirst.commits.2 mid
    rw [run_append, run_cons] at hsecond
    rw [hsecond.commits.1] at hcommitted
    cases hcommitted
  notOverwritten := by
    rintro pre a post rfl
    exact not_overwrites (guarded_append.mp h).2.1
  converged := by
    rintro pre post rfl hall
    have hinv := Guarded.invariant (I := fun s => Ledger env s ∧ Converging env s)
      (fun _ a hs hok => ⟨hs.1.step a, hs.2.step hs.1 hok⟩)
      ⟨Ledger.start ticket approvalOpen, Converging.start ticket approvalOpen⟩ h.take
    exact hinv.2.converged hall

/-! ## Runs -/

/-- Requests of type 1 are for team 10, and those of type 2 for team 20. -/
def twoTeams : Env where
  directory := { teams := [10, 20, 30] }
  domain _ := none
  assignedSpace _ := none
  evaluate context :=
    match context.requestTypeId with
    | some 1 =>
        .ok { target := some (.team 10), chosenBy := .requestTypeDefault, strategy := .fixed }
    | some 2 =>
        .ok { target := some (.team 20), chosenBy := .requestTypeDefault, strategy := .fixed }
    | _ => .error "no request type"

def leak : TicketRow where
  ticketTypeId := some 1
  locationId := none
  assetId := none
  priority := some "high"
  assignment := { teamId := some 10 }
  statusCategory := .assigned
  routingStatus := .idle
  routingFailureReason := none

/-- The case gets another type, two deliveries of the event overlap, and then a person takes the
case to team 30. -/
theorem routingLaw_of_sound_leak :
    RoutingLaw twoTeams (RoutingState.start leak false : RoutingState Bool)
      [.reclassify 2 none, .probe true 0, .read true, .probe false 0, .evaluate true none,
        .read false, .evaluate false none, .write true, .write false,
        .reassign "r1" { assignedTeamId := some 30, reason := "shift" } none] := by
  refine routingLaw_of_sound twoTeams leak false _ ⟨trivial, trivial, trivial, trivial, trivial,
    trivial, trivial, ?_, ?_, trivial, trivial⟩
  · intro _ _
    exact ⟨fun _ => rfl, .inr (.inr ⟨rfl, rfl⟩)⟩
  · intro hcommitted
    cases hcommitted

/-- A person takes the case to team 30 after the handler read it, and the handler takes it to
team 20. -/
theorem reassignment_is_overwritten :
    ¬RoutingLaw twoTeams (RoutingState.start leak false : RoutingState Unit)
      [.reclassify 2 none, .probe () 0, .read (), .evaluate () none,
        .reassign "r1" { assignedTeamId := some 30, reason := "shift" } none, .write ()] := by
  intro h
  refine h.notOverwritten [.reclassify 2 none, .probe () 0, .read (), .evaluate () none,
    .reassign "r1" { assignedTeamId := some 30, reason := "shift" } none] (.write ()) [] rfl ?_
  exact ⟨(), 0, _, 0, _, rfl, rfl, by decide +kernel, by decide +kernel⟩

end Prequest.Evaluation
