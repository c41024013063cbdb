import Prequest.Approval.TicketGrantRun
import Prequest.Lib.LockOrder

/-!
# `grant_ticket_approval` statement by statement

The function of `TicketGrant`, cut at every statement that reads rows other
transactions can change, and before the commit of an answer. Other writes go
with the statement before or after them: nobody else sees them until then.

* `alone_eq_respondOne`: a transaction that nobody interrupts is `respondOne`.
-/

namespace Prequest.Approval

open Prequest.Lib Prequest.Lib.ReadCommitted Prequest.Command Prequest.Outbox

/-- The locks the function takes: the advisory lock of the approval, the entry of its idempotency
key in the unique index, the approval row, the ticket row. -/
inductive GrantLock where
  | advisory (approvalId : Nat)
  | key (idempotencyKey : String)
  | approval (id : Nat)
  | ticket (id : Nat)
  deriving DecidableEq, Repr

/-- The control points of the function. -/
inductive GrantPc where
  | start
  | gate (decision : Decision)
  | insertOperation (decision : Decision)
  | selectApproval (decision : Decision)
  | respond (decision : Decision) (a : ApprovalRow)
  | countSiblings (decision : Decision) (a : ApprovalRow)
  | recordPartial (decision : Decision) (a : ApprovalRow) (remaining : Nat)
  | selectTicket (decision : Decision) (a : ApprovalRow)
  | decide (decision : Decision) (a : ApprovalRow) (t : TicketRow)
  /-- The recorded result of an earlier call was returned. -/
  | repeated (result : GrantResult)
  | finished (result : GrantResult)
  deriving DecidableEq, Repr

/-- The lock a statement waits for. -/
def grantLock (call : GrantCall) : GrantPc → Option GrantLock
  | .start => some (.advisory call.approvalId)
  | .insertOperation _ => some (.key call.idempotencyKey)
  | .selectApproval _ => some (.approval call.approvalId)
  | .selectTicket _ a => some (.ticket a.targetEntityId)
  | _ => none

/-- The outbox after the emits of a decision, none of which collides. -/
def TicketDb.emitted (db : TicketDb) (call : GrantCall) (decision : Decision) (t : TicketRow) :
    TicketDb :=
  { db with outbox := (eventsOf call decision t).foldl Table.put db.outbox }

/-- The statement at a control point. -/
def grantExec (call : GrantCall) : GrantPc → TicketDb → Effect TicketDb GrantPc
  | .start, _ =>
      match call.payload.parseDecision with
      | none => .abort
      | some decision =>
          if call.idempotencyKey = "" then .abort else .next (.gate decision) id
  | .gate decision, db =>
      match Command.gate db.commandOperations call.idempotencyKey call.payload with
      | .error _ => .abort
      | .ok (.cached result) => .commit (.repeated result) id
      | .ok .proceed => .next (.insertOperation decision) id
  | .insertOperation decision, db =>
      -- The key may have been recorded since the gate: then the insert violates its index.
      if (db.commandOperations.get? call.idempotencyKey).isSome then .abort
      else .next (.selectApproval decision) fun db => db.begin call
  | .selectApproval decision, db =>
      match db.approvals.get? call.approvalId with
      | none => .abort
      | some a =>
          if a.targetEntityType ≠ .ticket then
            let result := GrantResult.nonTicketApproved call.approvalId a.targetEntityType
            .commit (.finished result) fun db => db.finish call result
          else if a.status ≠ .pending then
            let result := GrantResult.alreadyResponded call.approvalId a.targetEntityId a.status
            .commit (.finished result) fun db => db.finish call result
          else .next (.respond decision a) id
  | .respond decision a, db =>
      if db.canRespond call then
        .next (.countSiblings decision a) fun rows => rows.respond call decision
      else .abort
  | .countSiblings decision a, db =>
      let remaining := remainingCount db.approvals a decision
      if 0 < remaining then .next (.recordPartial decision a remaining) id
      else .next (.selectTicket decision a) id
  | .recordPartial decision a remaining, db =>
      let result := GrantResult.partialApproved call.approvalId a.targetEntityId remaining
      .commit (.finished result) fun rows =>
        (rows.recordEvent call decision (db.actor call) a.targetEntityId (some remaining)).finish
          call result
  | .selectTicket decision a, db =>
      match db.tickets.get? a.targetEntityId with
      | none => .abort
      | some t => .next (.decide decision a t) id
  | .decide decision a t, db =>
      match emitAll db.outbox (eventsOf call decision t) with
      | .error _ => .abort
      | .ok _ =>
          let result := decidedResult call decision t
          .commit (.finished result) fun rows =>
            (((rows.setTicket call decision a.targetEntityId).recordDecision call decision
              (db.actor call) a.targetEntityId).emitted call decision t).finish call result
  | .repeated _, _ => .abort
  | .finished _, _ => .abort

def grantProgram (call : GrantCall) : Program TicketDb GrantLock GrantPc where
  start := .start
  lock := grantLock call
  exec := grantExec call

/-- The state of concurrent calls. -/
abbrev GrantWorld (ι : Type) := World TicketDb GrantLock GrantPc ι

/-- One transaction for each call, over these rows. -/
def grantWorld {ι : Type} [DecidableEq ι] (calls : ι → GrantCall) (db : TicketDb) : GrantWorld ι :=
  initial (fun i => grantProgram (calls i)) db

/-- The state after a schedule of the calls' statements. -/
def runGrants {ι : Type} [DecidableEq ι] (calls : ι → GrantCall) (w : GrantWorld ι)
    (sched : List ι) : GrantWorld ι :=
  run (step fun i => grantProgram (calls i)) w sched

/-! ## A transaction on its own -/

/-- What a transaction that commits or is rolled back leaves behind. -/
def committedOr (db : TicketDb) : Except GrantError (TicketDb × GrantResult) → TicketDb
  | .ok (db', _) => db'
  | .error _ => db

variable {call : GrantCall}

theorem alone_decideTicket {db : TicketDb} {decision : Decision} {a : ApprovalRow}
    {writes : TicketDb → TicketDb} (hactor : (writes db).actor call = db.actor call) :
    alone (grantProgram call) db 2 (.selectTicket decision a) writes =
      committedOr db (decideTicket (writes db) call decision (db.actor call) a.targetEntityId) := by
  unfold decideTicket
  cases hticket : (writes db).tickets.get? a.targetEntityId with
  | none =>
    rw [alone_abort (by simp [grantProgram, grantExec, hticket])]
    rfl
  | some t =>
    rw [alone_next (.decide decision a t) id
      (by simp [grantProgram, grantExec, hticket])]
    simp only [recordDecision_outbox, setTicket_outbox]
    cases hemit : emitAll (writes db).outbox (eventsOf call decision t) with
    | error e =>
      rw [alone_abort (by simp [grantProgram, grantExec, hemit])]
      rfl
    | ok outbox =>
      rw [alone_commit (.finished (decidedResult call decision t)) _
        (by simp only [grantProgram, grantExec, id_eq, hemit]; rfl)]
      simp only [id_eq, hactor, committedOr, TicketDb.emitted, recordDecision_outbox,
        setTicket_outbox, emitAll_eq_ok hemit]

theorem alone_respondToApproval (db : TicketDb) (call : GrantCall) (decision : Decision) :
    alone (grantProgram call) db 5 (.selectApproval decision) (fun db => db.begin call) =
      committedOr db (respondToApproval (db.begin call) call decision) := by
  unfold respondToApproval
  cases hrow : db.approvals.get? call.approvalId with
  | none =>
    rw [alone_abort (by simp [grantProgram, grantExec, hrow])]
    simp only [begin_approvals, hrow, committedOr]
  | some a =>
    simp only [begin_approvals, hrow]
    by_cases htarget : a.targetEntityType = .ticket
    · rw [if_neg (not_not.mpr htarget)]
      by_cases hpending : a.status = .pending
      · have hcan : (db.begin call).canRespond call = true := canRespond_of_pending hrow hpending
        rw [if_neg (not_not.mpr hpending), if_neg (not_not.mpr hcan),
          alone_next (.respond decision a) id
            (by simp [grantProgram, grantExec, hrow, htarget, hpending]),
          alone_next (.countSiblings decision a) _
            (by simp only [grantProgram, grantExec, id_eq, hcan, if_true]; rfl)]
        by_cases hwait : 0 < remainingCount
            ((db.begin call).respond call decision).approvals a decision
        · rw [if_pos hwait, alone_next _ id
              (by simp only [grantProgram, grantExec, id_eq, if_pos hwait]; rfl),
            alone_commit (.finished _) _ (by simp only [grantProgram, grantExec]; rfl)]
          rfl
        · rw [if_neg hwait, alone_next (.selectTicket decision a) id
            (by simp only [grantProgram, grantExec, id_eq, if_neg hwait])]
          exact alone_decideTicket rfl
      · rw [if_pos hpending, alone_commit (.finished _) _
          (by simp only [grantProgram, grantExec, begin_approvals, hrow, htarget, ne_eq,
                not_true_eq_false, if_false, if_pos hpending]; rfl)]
        rfl
    · rw [if_pos htarget, alone_commit (.finished _) _
        (by simp only [grantProgram, grantExec, begin_approvals, hrow, if_pos htarget]; rfl)]
      rfl

theorem alone_eq_respondOne (db : TicketDb) (call : GrantCall) :
    alone (grantProgram call) db 8 .start id = respondOne db call := by
  change _ = committedOr db (grantTicketApproval db call)
  unfold grantTicketApproval
  cases hparse : call.payload.parseDecision with
  | none =>
    rw [alone_abort (by simp [grantProgram, grantExec, hparse])]
    rfl
  | some decision =>
    simp only
    by_cases hkey : call.idempotencyKey = ""
    · rw [if_pos hkey, alone_abort (by simp [grantProgram, grantExec, hparse, hkey])]
      rfl
    rw [if_neg hkey, alone_next (.gate decision) id
      (by simp [grantProgram, grantExec, hkey, hparse])]
    cases hgate : gate db.commandOperations call.idempotencyKey call.payload with
    | error e =>
      rw [alone_abort (by simp [grantProgram, grantExec, hgate])]
      rfl
    | ok answer =>
      cases answer with
      | cached result =>
        rw [alone_commit (.repeated result) id
          (by simp [grantProgram, grantExec, hgate])]
        rfl
      | proceed =>
        rw [alone_next (.insertOperation decision) id
            (by simp [grantProgram, grantExec, hgate]),
          alone_next (.selectApproval decision) _
            (by simp only [grantProgram, grantExec, id_eq, gate_eq_proceed.mp hgate,
                  Option.isSome_none, Bool.false_eq_true, if_false]; rfl)]
        exact alone_respondToApproval db call decision

theorem runGrants_replicate {ι : Type} [DecidableEq ι] (calls : ι → GrantCall) (db : TicketDb)
    (i : ι) : (runGrants calls (grantWorld calls db) (List.replicate 8 i)).rows =
      respondOne db (calls i) := by
  rw [← alone_eq_respondOne]
  exact run_replicate rfl (fun _ _ h => by cases h) 8

/-! ## The order of the locks -/

/-- A call locks its approval, its key, the row of the approval and that of the ticket. -/
def GrantLock.rank : GrantLock → Nat
  | .advisory _ => 0
  | .key _ => 1
  | .approval _ => 2
  | .ticket _ => 3

def GrantPc.level : GrantPc → Nat
  | .start => 0
  | .gate _ | .insertOperation _ => 1
  | .selectApproval _ => 2
  | .respond .. | .countSiblings .. | .recordPartial .. | .selectTicket .. => 3
  | .decide .. | .repeated _ | .finished _ => 4

/-- The statements after the one at a control point, at most. -/
def GrantPc.left : GrantPc → Nat
  | .start => 7
  | .gate _ => 6
  | .insertOperation _ => 5
  | .selectApproval _ => 4
  | .respond .. => 3
  | .countSiblings .. => 2
  | .selectTicket .. => 1
  | .recordPartial .. | .decide .. | .repeated _ | .finished _ => 0

theorem rank_of_grantLock {pc : GrantPc} {k : GrantLock} (h : grantLock call pc = some k) :
    k.rank = pc.level := by
  cases pc with
  | start | insertOperation | selectApproval | selectTicket =>
    cases h
    rfl
  | gate | respond | countSiblings | recordPartial | decide | repeated
    | finished => cases h

/-- A statement that goes on has one statement less to go, and leaves the level of its lock. -/
theorem grantExec_descends {pc pc' : GrantPc} {db : TicketDb} {write : TicketDb → TicketDb}
    (h : grantExec call pc db = .next pc' write) :
    pc'.left < pc.left ∧ pc.level + (grantLock call pc).toList.length ≤ pc'.level := by
  cases pc
  all_goals
    simp only [grantExec] at h
    repeat' split at h
  all_goals cases h <;> simp [GrantPc.left, GrantPc.level, grantLock]

def grantOrder {ι : Type} (calls : ι → GrantCall) :
    LockOrder fun i => grantProgram (calls i) where
  rank := GrantLock.rank
  bound := 4
  level := GrantPc.level
  left := GrantPc.left
  rank_lt k := by cases k <;> simp [GrantLock.rank]
  asks hlock := Nat.le_of_eq (rank_of_grantLock hlock).symm
  takes {i pc k _ _ _} hlock hexec := by
    have hnext := (grantExec_descends hexec).2
    have hlock : grantLock (calls i) pc = some k := hlock
    rw [hlock] at hnext
    rw [rank_of_grantLock hlock]
    exact hnext
  climbs hexec := Nat.le_trans (Nat.le_add_right _ _) (grantExec_descends hexec).2
  ends hexec := (grantExec_descends hexec).1

/-- Whatever the calls have done so far, they do not wait for each other in a circle: they can go on
until each has committed or is rolled back, with at most 8 statements for each. -/
theorem grants_end {ι : Type} [DecidableEq ι] [Fintype ι] (calls : ι → GrantCall) (db : TicketDb)
    (sched : List ι) :
    ∃ more : List ι, more.length ≤ 8 * Fintype.card ι ∧
      ∀ i, ((runGrants calls (grantWorld calls db) (sched ++ more)).session i).phase ≠ .running := by
  have hheld := (heldBelow_initial (grantOrder calls) db).run sched
  obtain ⟨more, hlength, hended⟩ := hheld.exists_ending
  refine ⟨more, Nat.le_trans hlength ?_, fun i => ?_⟩
  · have hone : ∀ s : Session TicketDb GrantPc, sessionLeft (grantOrder calls) s ≤ 8 := by
      intro s
      have hleft : s.pc.left ≤ 7 := by
        cases s.pc <;> simp [GrantPc.left]
      unfold sessionLeft
      split
      · exact Nat.succ_le_succ hleft
      · exact Nat.zero_le _
    rw [Nat.mul_comm]
    exact Finset.sum_le_card_nsmul Finset.univ _ 8 fun i _ => hone _
  · rw [runGrants, run_append]
    exact hended i

end Prequest.Approval
