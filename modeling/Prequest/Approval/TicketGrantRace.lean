import Mathlib.Data.List.Induction
import Prequest.Approval.TicketGrantTx

/-!
# Concurrent ticket approvals

Several transactions of `grant_ticket_approval` answer the approvals of one
group at the same time. Each holds a lock on its own row only, and counts its
siblings before the others have committed: two transactions that count at the
same time both see the other's row pending, and neither resolves the ticket.

* `agreement_iff_someoneCountsLast`: these two are equivalent for every schedule
  after which all approvals are approved.
-/

namespace Prequest.Approval

open Prequest.Lib Prequest.Lib.ReadCommitted Prequest.Command Prequest.Outbox

/-! ## What a statement can do -/

/-- How a call ended. -/
inductive GrantKind where
  | refused
  | partialApproved
  | resolved (decision : Decision)
  deriving DecidableEq, Repr

def GrantResult.kind : GrantResult → GrantKind
  | .nonTicketApproved .. | .alreadyResponded .. => .refused
  | .partialApproved .. => .partialApproved
  | .resolved _ _ decision .. => .resolved decision

/-- The statements after which a transaction goes on. -/
inductive GrantNext (call : GrantCall) (view : TicketDb) :
    GrantPc → GrantPc → (TicketDb → TicketDb) → Prop where
  | start {decision : Decision} (hparse : call.payload.parseDecision = some decision) :
      GrantNext call view .start (.gate decision) id
  | gate {decision : Decision} : GrantNext call view (.gate decision) (.insertOperation decision) id
  | insertOperation {decision : Decision} :
      GrantNext call view (.insertOperation decision) (.selectApproval decision)
        fun db => db.begin call
  | selectApproval {decision : Decision} {a : ApprovalRow}
      (hrow : view.approvals.get? call.approvalId = some a) (hpending : a.status = .pending) :
      GrantNext call view (.selectApproval decision) (.respond decision a) id
  | respond {decision : Decision} {a : ApprovalRow} :
      GrantNext call view (.respond decision a) (.countSiblings decision a)
        fun db => db.respond call decision
  | countSiblings {decision : Decision} {a : ApprovalRow}
      (hnone : remainingCount view.approvals a decision = 0) :
      GrantNext call view (.countSiblings decision a) (.selectTicket decision a) id
  | countWaiting {decision : Decision} {a : ApprovalRow} :
      GrantNext call view (.countSiblings decision a)
        (.recordPartial decision a (remainingCount view.approvals a decision)) id
  | selectTicket {decision : Decision} {a : ApprovalRow} {t : TicketRow}
      (hticket : view.tickets.get? a.targetEntityId = some t) :
      GrantNext call view (.selectTicket decision a) (.decide decision a t) id

/-- The statements with which a transaction commits. -/
inductive GrantCommit (call : GrantCall) (view : TicketDb) :
    GrantPc → GrantPc → (TicketDb → TicketDb) → Prop where
  | repeated {decision : Decision} {result : GrantResult} :
      GrantCommit call view (.gate decision) (.repeated result) id
  | refused {decision : Decision} {result : GrantResult} (hkind : result.kind = .refused) :
      GrantCommit call view (.selectApproval decision) (.finished result)
        fun db => db.finish call result
  | partialApproved {decision : Decision} {a : ApprovalRow} {remaining : Nat} {result : GrantResult}
      (hkind : result.kind = .partialApproved) :
      GrantCommit call view (.recordPartial decision a remaining) (.finished result)
        fun db => (db.recordEvent call decision (view.actor call) a.targetEntityId
          (some remaining)).finish call result
  | decided {decision : Decision} {a : ApprovalRow} {t : TicketRow} :
      GrantCommit call view (.decide decision a t) (.finished (decidedResult call decision t))
        fun db => (((db.setTicket call decision a.targetEntityId).recordDecision call decision
          (view.actor call) a.targetEntityId).emitted call decision t).finish call
            (decidedResult call decision t)

theorem grantExec_spec (call : GrantCall) (pc : GrantPc) (view : TicketDb) :
    match grantExec call pc view with
    | .next pc' write => GrantNext call view pc pc' write
    | .commit pc' write => GrantCommit call view pc pc' write
    | .abort => True := by
  cases pc with
  | start =>
    simp only [grantExec]
    cases hparse : call.payload.parseDecision with
    | none => trivial
    | some decision =>
      simp only
      split_ifs
      · trivial
      · exact .start hparse
  | gate decision =>
    simp only [grantExec]
    cases hgate : Command.gate view.commandOperations call.idempotencyKey call.payload with
    | error e => trivial
    | ok answer =>
      cases answer with
      | cached result => exact .repeated
      | proceed => exact .gate
  | insertOperation decision =>
    simp only [grantExec]
    split_ifs
    · trivial
    · exact .insertOperation
  | selectApproval decision =>
    simp only [grantExec]
    cases hrow : view.approvals.get? call.approvalId with
    | none => trivial
    | some a =>
      by_cases htype : a.targetEntityType ≠ .ticket
      · simp only [if_pos htype]
        exact .refused rfl
      · by_cases hpending : a.status ≠ .pending
        · simp only [if_neg htype, if_pos hpending]
          exact .refused rfl
        · simp only [if_neg htype, if_neg hpending]
          exact .selectApproval hrow (not_not.mp hpending)
  | respond decision a =>
    simp only [grantExec]
    split_ifs
    · exact .respond
    · trivial
  | countSiblings decision a =>
    simp only [grantExec]
    split_ifs with hwait
    · exact .countWaiting
    · exact .countSiblings (Nat.eq_zero_of_not_pos hwait)
  | recordPartial decision a remaining => exact .partialApproved rfl
  | selectTicket decision a =>
    simp only [grantExec]
    cases hticket : view.tickets.get? a.targetEntityId with
    | none => trivial
    | some t => exact .selectTicket hticket
  | decide decision a t =>
    simp only [grantExec]
    cases emitAll view.outbox (eventsOf call decision t) with
    | error e => trivial
    | ok outbox => exact .decided
  | repeated result => trivial
  | finished result => trivial

variable {call : GrantCall} {s : Session TicketDb GrantPc} {write : TicketDb → TicketDb}
  {view : TicketDb}

theorem grantExec_next {pc pc' : GrantPc} (h : grantExec call pc view = .next pc' write) :
    GrantNext call view pc pc' write := by
  have hspec := grantExec_spec call pc view
  rwa [h] at hspec

theorem grantExec_commit {pc pc' : GrantPc} (h : grantExec call pc view = .commit pc' write) :
    GrantCommit call view pc pc' write := by
  have hspec := grantExec_spec call pc view
  rwa [h] at hspec

/-! ## The race and its invariant -/

/-- The calls answer different rows of one group of a ticket that awaits its approvals. -/
structure Race {ι : Type} (calls : ι → GrantCall) (db : TicketDb) (ticketId : Nat)
    (members : List Nat) : Prop where
  group : IsGroup db.approvals ticketId members
  awaits : AwaitsApproval db ticketId
  member : ∀ i, (calls i).approvalId ∈ members
  distinct : Function.Injective fun i => (calls i).approvalId

def Granting (db : TicketDb) (call : GrantCall) : Prop :=
  ∃ a, db.approvals.get? call.approvalId = some a ∧ a.status = .pending

section

variable (call : GrantCall)

/-- What the uncommitted writes of a session do, by its control point. -/
def PcWrites (pc : GrantPc) (writes : TicketDb → TicketDb) : Prop :=
  match pc with
  | .countSiblings decision _ | .recordPartial decision _ _ | .selectTicket decision _
  | .decide decision _ _ =>
      ∀ db, (writes db).approvals = (db.respond call decision).approvals ∧
        (writes db).tickets = db.tickets ∧ (writes db).outbox = db.outbox
  | _ => ∀ db, (writes db).approvals = db.approvals ∧ (writes db).tickets = db.tickets ∧
      (writes db).outbox = db.outbox

/-- The variables of a control point are what the transaction was called with and has read. -/
def PcReads (db : TicketDb) : GrantPc → Prop
  | .gate decision | .insertOperation decision | .selectApproval decision =>
      call.payload.parseDecision = some decision
  | .respond decision a | .countSiblings decision a | .recordPartial decision a _
  | .selectTicket decision a | .decide decision a _ =>
      call.payload.parseDecision = some decision ∧
        db.approvals.get? call.approvalId = some a ∧ a.status = .pending
  | _ => True

def AnsweredRow (db rows : TicketDb) (kind : GrantKind) : Prop :=
  ∃ decision a', call.payload.parseDecision = some decision ∧ Granting db call ∧
    rows.approvals.get? call.approvalId = some a' ∧ a'.status = decision.toStatus ∧
    (kind = .partialApproved ∨ kind = .resolved decision)

def CommittedRow (db rows : TicketDb) : GrantPc → Prop
  | .finished result =>
      AnsweredRow call db rows result.kind ∨ result.kind = .refused ∧
        rows.approvals.get? call.approvalId = db.approvals.get? call.approvalId
  | _ => rows.approvals.get? call.approvalId = db.approvals.get? call.approvalId

end

/-- What holds of one session over the rows before the race and now. -/
structure SessionInv (call : GrantCall) (db rows : TicketDb) (s : Session TicketDb GrantPc) :
    Prop where
  writes : s.phase = .running → PcWrites call s.pc s.writes
  reads : s.phase = .running → PcReads call db s.pc
  own : s.phase ≠ .committed →
    rows.approvals.get? call.approvalId = db.approvals.get? call.approvalId
  done : s.phase = .committed → CommittedRow call db rows s.pc

def EndedWith {ι : Type} (w : GrantWorld ι) (i : ι) (kind : GrantKind) : Prop :=
  (w.session i).phase = .committed ∧ ∃ result, (w.session i).pc = .finished result ∧
    result.kind = kind

/-- The session committed a decision on the ticket. -/
def Decided {ι : Type} (w : GrantWorld ι) (i : ι) : Prop :=
  ∃ decision, EndedWith w i (.resolved decision)

/-- What holds in every state of a race. -/
structure RaceInv {ι : Type} (calls : ι → GrantCall) (db : TicketDb) (ticketId : Nat)
    (members : List Nat) (w : GrantWorld ι) : Prop where
  group : IsGroup w.rows.approvals ticketId members
  session : ∀ i, SessionInv (calls i) db w.rows (w.session i)
  /-- Rows that no call answers stay as they are. -/
  others : ∀ id, (∀ i, (calls i).approvalId ≠ id) →
    w.rows.approvals.get? id = db.approvals.get? id
  /-- Until somebody decides, the ticket and the outbox stay as they are. -/
  quiet : (∀ j, ¬ Decided w j) → w.rows.tickets = db.tickets ∧ w.rows.outbox = db.outbox
  /-- A session about to decide first has read the ticket as it was. -/
  ticket : (∀ j, ¬ Decided w j) → ∀ i decision a t, (w.session i).phase = .running →
    (w.session i).pc = .decide decision a t → db.tickets.get? ticketId = some t
  /-- A single decision leaves its ticket and its events. -/
  single : ∀ i, EndedWith w i (.resolved .approved) → (∀ j, j ≠ i → ¬ Decided w j) →
    ∃ t, db.tickets.get? ticketId = some t ∧
      w.rows.tickets.get? ticketId = some (t.decide .approved (calls i).now) ∧
      w.rows.outbox = (eventsOf (calls i) .approved t).foldl Table.put db.outbox

/-! ## One statement of a race -/

section

variable {call : GrantCall} {db view rows : TicketDb} {pc pc' : GrantPc}
  {writes write : TicketDb → TicketDb}

theorem pcWrites_next (hnext : GrantNext call view pc pc' write) (h : PcWrites call pc writes) :
    PcWrites call pc' fun db => write (writes db) := by
  cases hnext with
  | start => exact h
  | gate => exact h
  | insertOperation => exact h
  | selectApproval => exact h
  | respond =>
    intro db
    obtain ⟨happrovals, htickets, houtbox⟩ := h db
    refine ⟨?_, htickets, houtbox⟩
    unfold TicketDb.respond
    simp only [happrovals]
  | countSiblings => exact h
  | countWaiting => exact h
  | selectTicket => exact h

theorem pcReads_next (hnext : GrantNext call (writes rows) pc pc' write)
    (hwrites : PcWrites call pc writes)
    (hown : rows.approvals.get? call.approvalId = db.approvals.get? call.approvalId)
    (h : PcReads call db pc) : PcReads call db pc' := by
  cases hnext with
  | start hparse => exact hparse
  | gate => exact h
  | insertOperation => exact h
  | selectApproval hrow hpending =>
    obtain ⟨happrovals, _, _⟩ := hwrites rows
    rw [happrovals, hown] at hrow
    exact ⟨h, hrow, hpending⟩
  | respond => exact h
  | countSiblings => exact h
  | countWaiting => exact h
  | selectTicket => exact h

theorem respond_get_ne {decision : Decision} {id : Nat} (h : id ≠ call.approvalId) :
    (rows.respond call decision).approvals.get? id = rows.approvals.get? id := by
  simp only [TicketDb.respond, Table.get?_update]
  cases hget : rows.approvals.get? id with
  | none => rfl
  | some r =>
    have hid : r.id = id := (get?_eq_some_iff.mp hget).2
    simp [Table.updated, hid, h]

theorem respond_get (decision : Decision) {a : ApprovalRow}
    (hrow : rows.approvals.get? call.approvalId = some a) (hpending : a.status = .pending) :
    ∃ a', (rows.respond call decision).approvals.get? call.approvalId = some a' ∧
      a'.status = decision.toStatus := by
  have hid : a.id = call.approvalId := (get?_eq_some_iff.mp hrow).2
  simp only [TicketDb.respond, Table.get?_update, hrow, Option.map_some]
  exact ⟨_, rfl, by simp [Table.updated, hid, hpending, ApprovalRow.respond]⟩

theorem commit_approvals (rows : TicketDb) (hcommit : GrantCommit call view pc pc' write)
    (hwrites : PcWrites call pc writes) :
    (write (writes rows)).approvals = rows.approvals ∨
      ∃ decision, (write (writes rows)).approvals = (rows.respond call decision).approvals := by
  cases hcommit with
  | repeated => exact .inl (hwrites rows).1
  | refused => exact .inl (hwrites rows).1
  | partialApproved => exact .inr ⟨_, (hwrites rows).1⟩
  | decided => exact .inr ⟨_, (hwrites rows).1⟩

theorem commit_get_ne (hcommit : GrantCommit call view pc pc' write)
    (hwrites : PcWrites call pc writes) {id : Nat} (hid : id ≠ call.approvalId) :
    (write (writes rows)).approvals.get? id = rows.approvals.get? id := by
  rcases commit_approvals rows hcommit hwrites with h | ⟨decision, h⟩
  · rw [h]
  · rw [h, respond_get_ne hid]

theorem commit_row (hcommit : GrantCommit call view pc pc' write)
    (hwrites : PcWrites call pc writes) (hreads : PcReads call db pc)
    (hown : rows.approvals.get? call.approvalId = db.approvals.get? call.approvalId) :
    CommittedRow call db (write (writes rows)) pc' := by
  cases hcommit with
  | repeated =>
    change (writes rows).approvals.get? call.approvalId = _
    rw [(hwrites rows).1]
    exact hown
  | refused hkind =>
    refine .inr ⟨hkind, ?_⟩
    rw [finish_approvals, (hwrites rows).1]
    exact hown
  | @partialApproved decision a remaining result hkind =>
    obtain ⟨hparse, hrow, hpending⟩ := hreads
    obtain ⟨a', ha', hstatus⟩ := respond_get decision (hown.trans hrow) hpending
    refine .inl ⟨decision, a', hparse, ⟨a, hrow, hpending⟩, ?_, hstatus, .inl hkind⟩
    rw [finish_approvals, recordEvent_approvals, (hwrites rows).1]
    exact ha'
  | @decided decision a t =>
    obtain ⟨hparse, hrow, hpending⟩ := hreads
    obtain ⟨a', ha', hstatus⟩ := respond_get decision (hown.trans hrow) hpending
    refine .inl ⟨decision, a', hparse, ⟨a, hrow, hpending⟩, ?_, hstatus, .inr rfl⟩
    rw [finish_approvals]
    change (writes rows).approvals.get? call.approvalId = _
    rw [(hwrites rows).1]
    exact ha'

end

/-! ## The invariant over runs -/

theorem SessionInv.congr {db rows rows' : TicketDb} (h : SessionInv call db rows s)
    (hrow : rows'.approvals.get? call.approvalId = rows.approvals.get? call.approvalId) :
    SessionInv call db rows' s := by
  refine ⟨h.writes, h.reads, fun hs => hrow.trans (h.own hs), fun hs => ?_⟩
  have hdone := h.done hs
  unfold CommittedRow AnsweredRow at hdone ⊢
  rw [hrow]
  exact hdone

section

variable {ι : Type} [DecidableEq ι] {calls : ι → GrantCall} {db : TicketDb} {ticketId : Nat}
  {members : List Nat} {w w' : GrantWorld ι} {k : ι}

theorem endedWith_setSession (hrunning : (w.session k).phase = .running)
    (hsession : w'.session = w.setSession k s) (hs : s.phase ≠ .committed) (j : ι)
    (kind : GrantKind) : EndedWith w' j kind ↔ EndedWith w j kind := by
  unfold EndedWith
  by_cases hjk : j = k
  · subst hjk
    rw [hsession, World.setSession, Function.update_self, hrunning]
    simp [hs]
  · rw [hsession, World.setSession, Function.update_of_ne hjk]

variable {pc : GrantPc} {w : GrantWorld ι}

theorem endedWith_commit
    (hsession : w'.session = w.setSession k { phase := .committed, pc := pc, writes := id })
    (j : ι) (kind : GrantKind) :
    EndedWith w' j kind ↔
      (j ≠ k ∧ EndedWith w j kind) ∨
        (j = k ∧ ∃ result, pc = .finished result ∧ result.kind = kind) := by
  unfold EndedWith
  by_cases hjk : j = k
  · subst hjk
    rw [hsession, World.setSession, Function.update_self]
    simp
  · rw [hsession, World.setSession, Function.update_of_ne hjk]
    simp [hjk]

omit [DecidableEq ι] in
theorem not_endedWith_of_running {kind : GrantKind} (hrunning : (w.session k).phase = .running) :
    ¬ EndedWith w k kind := by
  rintro ⟨hcommitted, _⟩
  rw [hrunning] at hcommitted
  cases hcommitted

variable {a : ApprovalRow} {writes write : TicketDb → TicketDb}

omit [DecidableEq ι] in
theorem Race.ticket_eq (hrace : Race calls db ticketId members)
    (hrow : db.approvals.get? (calls k).approvalId = some a) : a.targetEntityId = ticketId := by
  obtain ⟨ha, hid⟩ := get?_eq_some_iff.mp hrow
  exact (hrace.group.target a ha (by rw [hid]; exact hrace.member k)).2

theorem raceInv_initial (hrace : Race calls db ticketId members) :
    RaceInv calls db ticketId members (grantWorld calls db) where
  group := hrace.group
  session := fun i => ⟨fun _ _ => ⟨rfl, rfl, rfl⟩, fun _ => trivial, fun _ => rfl, fun h => by cases h⟩
  others := fun _ _ => rfl
  quiet := fun _ => ⟨rfl, rfl⟩
  ticket := by
    intro _ i decision a t _ hpc
    cases hpc
  single := by
    intro i h
    exact absurd h (not_endedWith_of_running rfl)

theorem raceInv_of_rows_eq
    (hinv : RaceInv calls db ticketId members w) (hrunning : (w.session k).phase = .running)
    (hrows : w'.rows = w.rows) (hsession : w'.session = w.setSession k s)
    (hs : s.phase ≠ .committed) (hwrites : s.phase = .running → PcWrites (calls k) s.pc s.writes)
    (hreads : s.phase = .running → PcReads (calls k) db s.pc)
    (hticket : (∀ j, ¬ Decided w j) → ∀ decision a t, s.phase = .running →
      s.pc = .decide decision a t → db.tickets.get? ticketId = some t) :
    RaceInv calls db ticketId members w' := by
  have hended := endedWith_setSession hrunning hsession hs
  have hdecided : ∀ j, Decided w' j ↔ Decided w j := fun j => by
    simp only [Decided, hended]
  have hself : w'.session k = s := by
    rw [hsession]
    exact Function.update_self ..
  have hother : ∀ j, j ≠ k → w'.session j = w.session j := fun j hj => by
    rw [hsession]
    exact Function.update_of_ne hj _ _
  refine ⟨?_, ?_, ?_, ?_, ?_, ?_⟩
  · rw [hrows]
    exact hinv.group
  · intro j
    rw [hrows]
    by_cases hjk : j = k
    · subst hjk
      rw [hself]
      exact ⟨hwrites, hreads, fun _ => (hinv.session j).own (by rw [hrunning]; decide),
        fun h => absurd h hs⟩
    · rw [hother j hjk]
      exact hinv.session j
  · rw [hrows]
    exact hinv.others
  · intro hnone
    rw [hrows]
    exact hinv.quiet fun j hj => hnone j ((hdecided j).mpr hj)
  · intro hnone j decision a t hphase hpc
    have hnone' : ∀ i, ¬ Decided w i := fun i hi => hnone i ((hdecided i).mpr hi)
    by_cases hjk : j = k
    · subst hjk
      rw [hself] at hphase hpc
      exact hticket hnone' decision a t hphase hpc
    · rw [hother j hjk] at hphase hpc
      exact hinv.ticket hnone' j decision a t hphase hpc
  · intro i hi hothers
    rw [hrows]
    exact hinv.single i ((hended i _).mp hi) fun j hj hdec => hothers j hj ((hdecided j).mpr hdec)

theorem commit_undecided {call : GrantCall} {view rows : TicketDb} {pc' : GrantPc}
    (hcommit : GrantCommit call view pc pc' write) (hwrites : PcWrites call pc writes)
    (hkind : ∀ result decision, pc' = .finished result → result.kind ≠ .resolved decision) :
    (write (writes rows)).tickets = rows.tickets ∧ (write (writes rows)).outbox = rows.outbox := by
  cases hcommit with
  | repeated => exact (hwrites rows).2
  | refused => exact (hwrites rows).2
  | partialApproved => exact (hwrites rows).2
  | @decided decision a t => exact absurd rfl (hkind _ decision rfl)

theorem commit_resolved {call : GrantCall} (rows : TicketDb) {result : GrantResult}
    (hcommit : GrantCommit call view pc (.finished result) write)
    (hwrites : PcWrites call pc writes) (hkind : result.kind = .resolved .approved) :
    ∃ a t, pc = .decide .approved a t ∧
      (rows.tickets.get? a.targetEntityId = some t →
        (write (writes rows)).tickets.get? a.targetEntityId = some (t.decide .approved call.now)) ∧
      (write (writes rows)).outbox = (eventsOf call .approved t).foldl Table.put rows.outbox := by
  cases hcommit with
  | refused h =>
    rw [h] at hkind
    cases hkind
  | partialApproved h =>
    rw [h] at hkind
    cases hkind
  | @decided decision a t =>
    obtain rfl : decision = .approved := GrantKind.resolved.inj hkind
    obtain ⟨_, htickets, houtbox⟩ := hwrites rows
    refine ⟨a, t, rfl, ?_, ?_⟩
    · intro hticket
      apply setTicket_get
      rw [htickets]
      exact hticket
    · change (eventsOf call .approved t).foldl Table.put (writes rows).outbox = _
      rw [houtbox]

theorem raceInv_commit (hrace : Race calls db ticketId members)
    (hinv : RaceInv calls db ticketId members w) (hrunning : (w.session k).phase = .running)
    (hcommit : GrantCommit (calls k) (w.view k) (w.session k).pc pc write)
    (hrows : w'.rows = write (w.view k))
    (hsession : w'.session = w.setSession k { phase := .committed, pc := pc, writes := id }) :
    RaceInv calls db ticketId members w' := by
  have hk := hinv.session k
  have hwrites := hk.writes hrunning
  have hreads := hk.reads hrunning
  have hended := endedWith_commit hsession
  have hself : w'.session k = { phase := .committed, pc := pc, writes := id } := by
    rw [hsession]
    exact Function.update_self ..
  have hother : ∀ j, j ≠ k → w'.session j = w.session j := fun j hj => by
    rw [hsession]
    exact Function.update_of_ne hj _ _
  have hsame : ∀ id, id ≠ (calls k).approvalId →
      w'.rows.approvals.get? id = w.rows.approvals.get? id := fun id hid => by
    rw [hrows]
    exact commit_get_ne hcommit hwrites hid
  -- Nobody had decided before, if only `k` or nobody has decided now.
  have hbefore : (∀ j, j ≠ k → ¬ Decided w' j) → ∀ j, ¬ Decided w j := by
    intro hnone j hj
    by_cases hjk : j = k
    · subst hjk
      obtain ⟨decision, hj⟩ := hj
      exact not_endedWith_of_running hrunning hj
    · exact hnone j hjk (hj.imp fun _ hj => (hended j _).mpr (.inl ⟨hjk, hj⟩))
  -- If `k` did not decide, ticket and outbox are as before.
  have hundecided : ¬ Decided w' k →
      w'.rows.tickets = w.rows.tickets ∧ w'.rows.outbox = w.rows.outbox := by
    intro hnot
    rw [hrows]
    refine commit_undecided hcommit hwrites fun result decision hpc h => hnot ?_
    exact ⟨decision, (hended k _).mpr (.inr ⟨rfl, result, hpc, h⟩)⟩
  refine ⟨?_, ?_, ?_, ?_, ?_, ?_⟩
  · rw [hrows]
    rcases commit_approvals w.rows hcommit hwrites with h | ⟨decision, h⟩
    · rw [World.view, h]
      exact hinv.group
    · rw [World.view, h]
      exact hinv.group.respond
  · intro j
    by_cases hjk : j = k
    · subst hjk
      rw [hself]
      refine ⟨nofun, nofun, fun h => absurd rfl h, fun _ => ?_⟩
      rw [hrows]
      exact commit_row hcommit hwrites hreads (hk.own (by rw [hrunning]; decide))
    · rw [hother j hjk]
      exact (hinv.session j).congr (hsame _ fun h => hjk (hrace.distinct h))
  · intro id hid
    rw [hsame id fun h => hid k h.symm]
    exact hinv.others id hid
  · intro hnone
    obtain ⟨htickets, houtbox⟩ := hundecided (hnone k)
    rw [htickets, houtbox]
    exact hinv.quiet (hbefore fun j _ => hnone j)
  · intro hnone j decision a t hphase hpc
    have hjk : j ≠ k := by
      rintro rfl
      rw [hself] at hphase
      cases hphase
    rw [hother j hjk] at hphase hpc
    exact hinv.ticket (hbefore fun j _ => hnone j) j decision a t hphase hpc
  · intro i hi hothers
    rcases (hended i _).mp hi with ⟨hik, hi⟩ | ⟨rfl, result, rfl, hkind⟩
    · obtain ⟨htickets, houtbox⟩ := hundecided (hothers k (Ne.symm hik))
      rw [htickets, houtbox]
      refine hinv.single i hi fun j hj hdec => ?_
      by_cases hjk : j = k
      · subst hjk
        obtain ⟨decision, hdec⟩ := hdec
        exact not_endedWith_of_running hrunning hdec
      · exact hothers j hj (hdec.imp fun _ hdec => (hended j _).mpr (.inl ⟨hjk, hdec⟩))
    · have hnone := hbefore hothers
      obtain ⟨htickets, houtbox⟩ := hinv.quiet hnone
      obtain ⟨a, t, hpc, hticket, hout⟩ := commit_resolved w.rows hcommit hwrites hkind
      rw [hpc] at hreads
      have hid := hrace.ticket_eq hreads.2.1
      rw [hid] at hticket
      have ht := hinv.ticket hnone _ _ a t hrunning hpc
      refine ⟨t, ht, ?_, ?_⟩
      · rw [hrows]
        exact hticket (by rw [htickets]; exact ht)
      · rw [hrows, World.view, hout, houtbox]

theorem raceInv_step (hrace : Race calls db ticketId members) (w : GrantWorld ι) (k : ι)
    (hinv : RaceInv calls db ticketId members w) :
    RaceInv calls db ticketId members (step (fun i => grantProgram (calls i)) w k) := by
  have hk := hinv.session k
  cases step_cases (fun i => grantProgram (calls i)) w k with
  | idle hsame => rw [hsame]; exact hinv
  | next hrunning hexec hrows hsession =>
    have hnext : GrantNext (calls k) (w.view k) (w.session k).pc _ _ := grantExec_next hexec
    have hwrites := hk.writes hrunning
    have hwrites' := pcWrites_next hnext hwrites
    refine raceInv_of_rows_eq hinv hrunning hrows hsession nofun (fun _ => hwrites')
      (fun _ => pcReads_next hnext hwrites (hk.own (by rw [hrunning]; decide))
        (hk.reads hrunning)) ?_
    intro hnone decision a t _ hpc
    simp only at hpc
    subst hpc
    -- The session has just read the ticket, which nobody has decided yet.
    have hreads := hk.reads hrunning
    generalize hfrom : (w.session k).pc = from_ at hnext hwrites hreads
    cases hnext with
    | selectTicket hticket =>
      rw [World.view, (hwrites w.rows).2.1, (hinv.quiet hnone).1, hrace.ticket_eq hreads.2.1] at hticket
      exact hticket
  | commit hrunning hexec hrows hsession =>
    exact raceInv_commit hrace hinv hrunning (grantExec_commit hexec) hrows hsession
  | abort hrunning hrows hsession =>
    exact raceInv_of_rows_eq hinv hrunning hrows hsession nofun nofun nofun
      fun _ _ _ _ h => nomatch h

theorem raceInv_run (hrace : Race calls db ticketId members) (sched : List ι) :
    RaceInv calls db ticketId members (runGrants calls (grantWorld calls db) sched) :=
  run_invariant (raceInv_step hrace) (raceInv_initial hrace) sched

/-! ## The sibling count of a resolving transaction -/

/-- Session `i` is about to count its siblings. -/
def AtCount (w : GrantWorld ι) (i : ι) (decision : Decision) (a : ApprovalRow) : Prop :=
  (w.session i).phase = .running ∧ (w.session i).pc = .countSiblings decision a

/-- Session `i` has counted nobody: it goes on to the ticket, or has resolved it. -/
def CountedNobody (w : GrantWorld ι) (i : ι) (decision : Decision) : Prop :=
  ((w.session i).phase = .running ∧ ∃ a, (w.session i).pc = .selectTicket decision a ∨
    ∃ t, (w.session i).pc = .decide decision a t) ∨
  EndedWith w i (.resolved decision)

variable {decision : Decision} {i : ι}

theorem countedNobody_step {k i : ι}
    (h : CountedNobody (step (fun i => grantProgram (calls i)) w k) i decision) :
    CountedNobody w i decision ∨
      (k = i ∧ ∃ a, AtCount w i decision a ∧ remainingCount (w.view i).approvals a decision = 0) := by
  by_cases hik : i = k
  · subst hik
    cases step_cases (fun i => grantProgram (calls i)) w i with
    | idle hsame => exact .inl (by rwa [hsame] at h)
    | next hrunning hexec _ hsession =>
      have hnext : GrantNext (calls i) (w.view i) (w.session i).pc _ _ := grantExec_next hexec
      simp only [CountedNobody, EndedWith, hsession, World.setSession, Function.update_self,
        reduceCtorEq, false_and, or_false, true_and] at h
      obtain ⟨a, hpc⟩ := h
      generalize hfrom : (w.session i).pc = from_ at hnext
      rcases hpc with rfl | ⟨t, rfl⟩
      · cases hnext with
        | countSiblings hnone => exact .inr ⟨rfl, a, ⟨hrunning, hfrom⟩, hnone⟩
      · cases hnext with
        | selectTicket => exact .inl (.inl ⟨hrunning, a, .inl hfrom⟩)
    | commit hrunning hexec _ hsession =>
      have hcommit : GrantCommit (calls i) (w.view i) (w.session i).pc _ _ :=
        grantExec_commit hexec
      simp only [CountedNobody, EndedWith, hsession, World.setSession, Function.update_self,
        reduceCtorEq, false_and, false_or, true_and] at h
      obtain ⟨result, rfl, hkind⟩ := h
      generalize hfrom : (w.session i).pc = from_ at hcommit
      cases hcommit with
      | refused h =>
        rw [h] at hkind
        cases hkind
      | partialApproved h =>
        rw [h] at hkind
        cases hkind
      | @decided decision' a t =>
        obtain rfl : decision' = decision := GrantKind.resolved.inj hkind
        exact .inl (.inl ⟨hrunning, a, .inr ⟨t, hfrom⟩⟩)
    | abort _ _ hsession =>
      simp [CountedNobody, EndedWith, hsession, World.setSession] at h
  · left
    unfold CountedNobody EndedWith at h ⊢
    rwa [step_session_ne w hik] at h

theorem counted_of_countedNobody (sched : List ι)
    (h : CountedNobody (runGrants calls (grantWorld calls db) sched) i decision) :
    ∃ pre post a, sched = pre ++ i :: post ∧
      AtCount (runGrants calls (grantWorld calls db) pre) i decision a ∧
      remainingCount ((runGrants calls (grantWorld calls db) pre).view i).approvals a decision = 0 := by
  induction sched using List.reverseRecOn with
  | nil =>
    rcases h with ⟨_, a, hpc | ⟨t, hpc⟩⟩ | hended
    · cases hpc
    · cases hpc
    · exact absurd hended (not_endedWith_of_running rfl)
  | append_singleton sched k ih =>
    rw [runGrants, run_append] at h
    rcases countedNobody_step h with hbefore | ⟨rfl, a, hcount, hzero⟩
    · obtain ⟨pre, post, a, rfl, hcount, hzero⟩ := ih hbefore
      exact ⟨pre, post ++ [k], a, by simp, hcount, hzero⟩
    · exact ⟨sched, [], a, rfl, hcount, hzero⟩

/-- Session `i` is past its count and will not end as partial. -/
def Deciding (w : GrantWorld ι) (i : ι) : Prop :=
  ((w.session i).phase = .running ∧ ∃ decision a, (w.session i).pc = .selectTicket decision a ∨
    ∃ t, (w.session i).pc = .decide decision a t) ∨
  (w.session i).phase = .aborted ∨ Decided w i

theorem deciding_step (w : GrantWorld ι) (k : ι) (h : Deciding w i) :
    Deciding (step (fun i => grantProgram (calls i)) w k) i := by
  by_cases hik : i = k
  · subst hik
    cases step_cases (fun i => grantProgram (calls i)) w i with
    | idle hsame => rwa [hsame]
    | next hrunning hexec _ hsession =>
      have hnext : GrantNext (calls i) (w.view i) (w.session i).pc _ _ := grantExec_next hexec
      rcases h with ⟨_, decision, a, hpc | ⟨t, hpc⟩⟩ | haborted | hdecided
      · rw [hpc] at hnext
        cases hnext with
        | @selectTicket _ _ t =>
          refine .inl ⟨?_, decision, a, .inr ⟨t, ?_⟩⟩ <;>
            rw [hsession, World.setSession, Function.update_self]
      · rw [hpc] at hnext
        cases hnext
      · rw [hrunning] at haborted
        cases haborted
      · obtain ⟨_, hended⟩ := hdecided
        exact absurd hended (not_endedWith_of_running hrunning)
    | commit hrunning hexec _ hsession =>
      have hcommit : GrantCommit (calls i) (w.view i) (w.session i).pc _ _ :=
        grantExec_commit hexec
      rcases h with ⟨_, decision, a, hpc | ⟨t, hpc⟩⟩ | haborted | hdecided
      · rw [hpc] at hcommit
        cases hcommit
      · rw [hpc] at hcommit
        cases hcommit with
        | decided =>
          exact .inr (.inr ⟨decision,
            (endedWith_commit hsession i _).mpr (.inr ⟨rfl, _, rfl, rfl⟩)⟩)
      · rw [hrunning] at haborted
        cases haborted
      · obtain ⟨_, hended⟩ := hdecided
        exact absurd hended (not_endedWith_of_running hrunning)
    | abort _ _ hsession =>
      refine .inr (.inl ?_)
      rw [hsession, World.setSession, Function.update_self]
  · unfold Deciding Decided EndedWith at h ⊢
    rwa [step_session_ne w hik]

/-! ## Agreement -/

/-- Exactly one transaction resolved the ticket, and the events emitted are its events. -/
def Agreement (calls : ι → GrantCall) (db : TicketDb) (ticketId : Nat) (w : GrantWorld ι) : Prop :=
  ∃ i t, EndedWith w i (.resolved .approved) ∧
    (∀ j, EndedWith w j (.resolved .approved) → j = i) ∧
    IsApproved w.rows ticketId ∧ db.tickets.get? ticketId = some t ∧
    w.rows.outbox = (postApprovalEvents (calls i) t).foldl Table.put db.outbox

/-- Some granting transaction counts its siblings when all others have committed. -/
def SomeoneCountsLast (calls : ι → GrantCall) (db : TicketDb) (sched : List ι) : Prop :=
  ∃ i pre post decision a, sched = pre ++ i :: post ∧ Granting db (calls i) ∧
    AtCount (runGrants calls (grantWorld calls db) pre) i decision a ∧
    ∀ j, j ≠ i → Granting db (calls j) →
      ((runGrants calls (grantWorld calls db) pre).session j).phase = .committed

omit [DecidableEq ι] in
theorem answered_of_changed (hinv : RaceInv calls db ticketId members w)
    (hchanged : w.rows.approvals.get? (calls i).approvalId ≠ db.approvals.get? (calls i).approvalId) :
    (w.session i).phase = .committed ∧ ∃ result, (w.session i).pc = .finished result ∧
      AnsweredRow (calls i) db w.rows result.kind := by
  have hcommitted : (w.session i).phase = .committed := by
    by_contra hnot
    exact hchanged ((hinv.session i).own hnot)
  refine ⟨hcommitted, ?_⟩
  have hdone := (hinv.session i).done hcommitted
  generalize (w.session i).pc = pc at hdone
  cases pc with
  | finished result =>
    rcases hdone with hanswered | ⟨_, hsame⟩
    · exact ⟨result, rfl, hanswered⟩
    · exact absurd hsame hchanged
  | _ => exact absurd hdone hchanged

omit [DecidableEq ι] in
theorem status_of_allHave (hrace : Race calls db ticketId members)
    (hall : AllHave w.rows.approvals members .approved) {r : ApprovalRow}
    (hr : w.rows.approvals.get? (calls i).approvalId = some r) : r.status = .approved := by
  obtain ⟨hr, hid⟩ := get?_eq_some_iff.mp hr
  exact hall r hr (by rw [hid]; exact hrace.member i)

omit [DecidableEq ι] in
theorem committed_of_approved (hrace : Race calls db ticketId members)
    (hinv : RaceInv calls db ticketId members w)
    (hall : AllHave w.rows.approvals members .approved) (hgranting : Granting db (calls i)) :
    (calls i).payload.parseDecision = some .approved ∧ (w.session i).phase = .committed ∧
      (EndedWith w i .partialApproved ∨ EndedWith w i (.resolved .approved)) := by
  obtain ⟨a, hrow, hpending⟩ := hgranting
  have hchanged : w.rows.approvals.get? (calls i).approvalId ≠
      db.approvals.get? (calls i).approvalId := by
    intro hsame
    have hstatus := status_of_allHave hrace hall (hsame.trans hrow)
    rw [hpending] at hstatus
    cases hstatus
  obtain ⟨hcommitted, result, hpc, decision, a', hparse, _, hrow', hstatus, hkind⟩ :=
    answered_of_changed hinv hchanged
  rw [status_of_allHave hrace hall hrow'] at hstatus
  have hdecision : decision = .approved := decision.toStatus_eq_approved.mp hstatus.symm
  subst hdecision
  refine ⟨hparse, hcommitted, ?_⟩
  rcases hkind with hkind | hkind
  · exact .inl ⟨hcommitted, result, hpc, hkind⟩
  · exact .inr ⟨hcommitted, result, hpc, hkind⟩

omit [DecidableEq ι] in
theorem uncommitted_of_nonTerminal (hinv : RaceInv calls db ticketId members w)
    (hinv' : RaceInv calls db ticketId members w')
    (hall : AllHave w'.rows.approvals members .approved)
    (hlater : ∀ j, (w.session j).phase = .committed → w'.session j = w.session j)
    {r : ApprovalRow} (hr : r ∈ w.rows.approvals.rows) (hmem : r.id ∈ members)
    (hwaits : r.nonTerminal = true) :
    ∃ j, (calls j).approvalId = r.id ∧ Granting db (calls j) ∧
      (w.session j).phase ≠ .committed := by
  have hnow : w.rows.approvals.get? r.id = some r := get?_eq_some_iff.mpr ⟨hr, rfl⟩
  -- The row changes from `w` to `w'`, where it is approved.
  have hchanges : w'.rows.approvals.get? r.id ≠ some r := by
    intro hlater'
    obtain ⟨hr', _⟩ := get?_eq_some_iff.mp hlater'
    have hstatus := hall r hr' hmem
    simp [ApprovalRow.nonTerminal, hstatus] at hwaits
  by_cases hcall : ∃ j, (calls j).approvalId = r.id
  · obtain ⟨j, hj⟩ := hcall
    rw [← hj] at hnow hchanges
    have hbefore : w.rows.approvals.get? (calls j).approvalId =
        db.approvals.get? (calls j).approvalId := by
      by_contra hne
      obtain ⟨_, _, _, decision, a', _, _, hrow', hstatus, _⟩ := answered_of_changed hinv hne
      rw [hnow] at hrow'
      cases hrow'
      cases decision <;> simp [ApprovalRow.nonTerminal, hstatus, Decision.toStatus] at hwaits
    obtain ⟨_, result', hpc', hanswered'⟩ :=
      answered_of_changed hinv' (i := j) (by rw [← hbefore, hnow]; exact hchanges)
    refine ⟨j, hj, ?_, ?_⟩
    · obtain ⟨_, _, _, hgranting, _⟩ := hanswered'
      exact hgranting
    · intro hcommitted
      have hdone := (hinv.session j).done hcommitted
      rw [← hlater j hcommitted, hpc'] at hdone
      rcases hdone with ⟨decision, a', _, _, hrow', hstatus, _⟩ | ⟨hkind, _⟩
      · rw [hnow] at hrow'
        cases hrow'
        cases decision <;> simp [ApprovalRow.nonTerminal, hstatus, Decision.toStatus] at hwaits
      · obtain ⟨_, _, _, _, _, _, hkind'⟩ := hanswered'
        rcases hkind' with h | h <;> rw [hkind] at h <;> cases h
  · push Not at hcall
    exact absurd ((hinv'.others r.id hcall).trans ((hinv.others r.id hcall).symm.trans hnow)) hchanges

/-- The count of a session's siblings is zero exactly when all other granting transactions
have committed, if all rows are approved in the end. -/
theorem counts_zero_iff (hrace : Race calls db ticketId members) {pre post : List ι}
    (hall : AllHave (runGrants calls (grantWorld calls db) (pre ++ post)).rows.approvals members
      .approved)
    (hcount : AtCount (runGrants calls (grantWorld calls db) pre) i .approved a) :
    remainingCount ((runGrants calls (grantWorld calls db) pre).view i).approvals a .approved = 0 ↔
      ∀ j, j ≠ i → Granting db (calls j) →
        ((runGrants calls (grantWorld calls db) pre).session j).phase = .committed := by
  have hfinal := raceInv_run hrace (pre ++ post)
  have hlater : ∀ j, ((runGrants calls (grantWorld calls db) pre).session j).phase = .committed →
      (runGrants calls (grantWorld calls db) (pre ++ post)).session j =
        (runGrants calls (grantWorld calls db) pre).session j := by
    intro j hj
    rw [runGrants, run_append]
    exact ended_stays (by rw [← runGrants, hj]; decide) post
  have hinv := raceInv_run hrace pre
  generalize runGrants calls (grantWorld calls db) pre = w at *
  obtain ⟨hrunning, hpc⟩ := hcount
  have hi := hinv.session i
  have hwrites := hi.writes hrunning
  have hreads := hi.reads hrunning
  rw [hpc] at hwrites hreads
  have hrow := (hi.own (by rw [hrunning]; decide)).trans hreads.2.1
  rw [World.view, (hwrites w.rows).1,
    remainingCount_eq_zero_iff hinv.group hrow (hrace.member i) hreads.2.2]
  constructor
  · intro hnone j hji hgranting
    by_contra hnot
    obtain ⟨b, hb, hpending⟩ := hgranting
    obtain ⟨hb, hid⟩ := get?_eq_some_iff.mp (((hinv.session j).own hnot).trans hb)
    have hterminal := hnone b hb (by rw [hid]; exact hrace.member j)
      (by rw [hid]; exact fun h => hji (hrace.distinct h))
    simp [ApprovalRow.nonTerminal, hpending] at hterminal
  · intro hothers r hr hmem hne
    by_contra hwaits
    obtain ⟨j, hj, hgranting, hnot⟩ := uncommitted_of_nonTerminal hinv hfinal hall hlater hr
      hmem (by simpa using hwaits)
    refine hnot (hothers j ?_ hgranting)
    rintro rfl
    exact hne hj.symm

theorem committed_of_prefix {short : List ι} (rest : List ι)
    (h : ((runGrants calls w short).session k).phase = .committed) :
    ((runGrants calls w (short ++ rest)).session k).phase = .committed := by
  rw [runGrants, run_append]
  exact committed_stays h rest

omit [DecidableEq ι] in
theorem not_rejected_of_allHave (hrace : Race calls db ticketId members)
    (hinv : RaceInv calls db ticketId members w)
    (hall : AllHave w.rows.approvals members .approved) (j : ι) :
    ¬ EndedWith w j (.resolved .rejected) := by
  rintro ⟨hcommitted, result, hpc, hkind⟩
  have hdone := (hinv.session j).done hcommitted
  rw [hpc] at hdone
  rcases hdone with ⟨decision, a', _, _, hrow', hstatus, hkind'⟩ | ⟨hkind', _⟩
  · rw [status_of_allHave hrace hall hrow'] at hstatus
    have hdecision : decision = .approved := decision.toStatus_eq_approved.mp hstatus.symm
    subst hdecision
    rcases hkind' with h | h <;> rw [hkind] at h <;> cases h
  · rw [hkind] at hkind'
    cases hkind'

theorem deciding_of_count (hcount : AtCount w i decision a)
    (hzero : remainingCount (w.view i).approvals a decision = 0) :
    Deciding (step (fun i => grantProgram (calls i)) w i) i := by
  obtain ⟨hrunning, hpc⟩ := hcount
  have hsession := (step_of_running (fun i => grantProgram (calls i)) hrunning
    (by rw [hpc]; rfl)).1 (.selectTicket decision a) id
    (by simp [hpc, grantProgram, grantExec, hzero])
  refine .inl ⟨?_, decision, a, .inl ?_⟩ <;> rw [hsession]

/-- For every schedule after which all approvals of the group are approved: one transaction
resolved the ticket exactly when one of them counted after all others had committed. -/
theorem agreement_iff_someoneCountsLast (hrace : Race calls db ticketId members) (sched : List ι)
    (hall : AllHave (runGrants calls (grantWorld calls db) sched).rows.approvals members .approved) :
    Agreement calls db ticketId (runGrants calls (grantWorld calls db) sched) ↔
      SomeoneCountsLast calls db sched := by
  have hfinal := raceInv_run hrace sched
  -- A transaction that resolved the ticket counted after all others had committed.
  have hlast : ∀ i, EndedWith (runGrants calls (grantWorld calls db) sched) i (.resolved .approved) →
      ∃ pre post a, sched = pre ++ i :: post ∧ Granting db (calls i) ∧
        AtCount (runGrants calls (grantWorld calls db) pre) i .approved a ∧
        ∀ j, j ≠ i → Granting db (calls j) →
          ((runGrants calls (grantWorld calls db) pre).session j).phase = .committed := by
    intro i hi
    obtain ⟨pre, post, a, hsplit, hcount, hzero⟩ :=
      counted_of_countedNobody sched (.inr hi)
    rw [hsplit] at hall
    have hreads := ((raceInv_run hrace pre).session i).reads hcount.1
    rw [hcount.2] at hreads
    exact ⟨pre, post, a, hsplit, ⟨a, hreads.2⟩, hcount, (counts_zero_iff hrace hall hcount).mp hzero⟩
  constructor
  · rintro ⟨i, _, hi, _⟩
    obtain ⟨pre, post, a, h⟩ := hlast i hi
    exact ⟨i, pre, post, .approved, a, h⟩
  · rintro ⟨i, pre, post, decision, a, hsplit, hgranting, hcount, hothers⟩
    have hcommitted := committed_of_approved hrace hfinal hall hgranting
    have hdecision : decision = .approved := by
      have hreads := ((raceInv_run hrace pre).session i).reads hcount.1
      rw [hcount.2] at hreads
      exact Option.some.inj (hreads.1.symm.trans hcommitted.1)
    subst hdecision
    -- The session counts nobody, so it does not end as partial.
    have hresolved : EndedWith (runGrants calls (grantWorld calls db) sched) i
        (.resolved .approved) := by
      have hzero := (counts_zero_iff hrace (hsplit ▸ hall) hcount).mpr hothers
      have hdeciding : Deciding (runGrants calls (grantWorld calls db) sched) i := by
        rw [hsplit, runGrants, run_append, run_cons]
        exact run_invariant (I := fun w : GrantWorld ι => Deciding w i)
          (fun w k h => deciding_step w k h) (deciding_of_count hcount hzero) post
      rcases hdeciding with ⟨hrunning, _⟩ | haborted | hdecided
      · rw [hcommitted.2.1] at hrunning
        cases hrunning
      · rw [hcommitted.2.1] at haborted
        cases haborted
      · obtain ⟨decision, hended⟩ := hdecided
        cases decision with
        | approved => exact hended
        | rejected => exact absurd hended (not_rejected_of_allHave hrace hfinal hall i)
    -- Of two that resolved the ticket, each would have committed before the other counted.
    have hunique : ∀ j, EndedWith (runGrants calls (grantWorld calls db) sched) j
        (.resolved .approved) → j = i := by
      intro j hj
      by_contra hji
      obtain ⟨pre', post', a', hsplit', hgranting', hcount', hothers'⟩ := hlast j hj
      rcases List.prefix_or_prefix_of_prefix ⟨i :: post, hsplit.symm⟩ ⟨j :: post', hsplit'.symm⟩ with
        ⟨rest, hrest⟩ | ⟨rest, hrest⟩
      · have hj' := committed_of_prefix rest (hothers j hji hgranting')
        rw [hrest, hcount'.1] at hj'
        cases hj'
      · have hi' := committed_of_prefix rest (hothers' i (Ne.symm hji) hgranting)
        rw [hrest, hcount.1] at hi'
        cases hi'
    obtain ⟨t, ht, hticket, houtbox⟩ := hfinal.single i hresolved (by
      rintro j hji ⟨decision, hended⟩
      cases decision with
      | approved => exact hji (hunique j hended)
      | rejected => exact not_rejected_of_allHave hrace hfinal hall j hended)
    obtain ⟨t', ht', hawaits⟩ := hrace.awaits
    obtain rfl : t' = t := Option.some.inj (ht'.symm.trans ht)
    rw [eventsOf_approved hawaits] at houtbox
    exact ⟨i, t', hresolved, hunique, ⟨_, hticket, decide_approved hawaits _⟩, ht, houtbox⟩

end

/-! ## Three transactions -/

/-- The three rows of `threeApprovals` are approved, each by a transaction of its own. -/
def approveAll (i : Fin 3) : GrantCall :=
  responseTo (10 + i) "approved" (["a", "b", "c"].get i)

/-- Each transaction writes its answer, then each counts its siblings, then each commits. -/
def allCount : List (Fin 3) :=
  List.replicate 5 0 ++ List.replicate 5 1 ++ List.replicate 5 2 ++ [0, 1, 2] ++ [0, 1, 2]

theorem approveAll_race : Race approveAll threeApprovals 1 [10, 11, 12] where
  group := by decide
  awaits := ⟨_, rfl, rfl⟩
  member := by decide
  distinct := by
    intro i j h
    simp only [approveAll, responseTo] at h
    omega

/-- All three count the others as pending: all rows are approved and nobody resolves the ticket. -/
theorem allCount_stuck :
    ¬ ∀ (ι : Type) [DecidableEq ι] (calls : ι → GrantCall) db ticketId members sched,
      Race calls db ticketId members →
      (∀ i, ((runGrants calls (grantWorld calls db) sched).session i).phase ≠ .running) →
      AllHave (runGrants calls (grantWorld calls db) sched).rows.approvals members .approved →
      Agreement calls db ticketId (runGrants calls (grantWorld calls db) sched) := by
  intro hagree
  obtain ⟨i, _, ⟨_, result, hpc, hkind⟩, _⟩ := hagree (Fin 3) approveAll threeApprovals 1 [10, 11, 12]
    allCount approveAll_race (by decide +kernel) (by decide +kernel)
  have hwaiting : ∀ i, ((runGrants approveAll (grantWorld approveAll threeApprovals)
      allCount).session i).pc =
        .finished (.partialApproved (10 + i) 1 2) := by decide +kernel
  rw [hwaiting i] at hpc
  cases hpc
  cases hkind

theorem oneByOne_committed : ∀ j : Fin 3, j ≠ 2 →
    ((runGrants approveAll (grantWorld approveAll threeApprovals)
      (List.replicate 8 0 ++ List.replicate 8 1 ++ List.replicate 5 2)).session j).phase =
        .committed := by decide +kernel

/-- One transaction after the other: the last one counts after the others have committed. -/
theorem agreement_oneByOne :
    Agreement approveAll threeApprovals 1 (runGrants approveAll (grantWorld approveAll threeApprovals)
      (List.replicate 8 0 ++ List.replicate 8 1 ++ List.replicate 8 2)) :=
  (agreement_iff_someoneCountsLast approveAll_race _ (by decide +kernel)).mpr
    ⟨2, List.replicate 8 0 ++ List.replicate 8 1 ++ List.replicate 5 2, [2, 2], .approved,
      chainRowOf 12, by decide, ⟨chainRowOf 12, by decide, rfl⟩, ⟨by decide +kernel, by decide +kernel⟩,
      fun j hj _ => oneByOne_committed j hj⟩

end Prequest.Approval
