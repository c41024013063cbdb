import Prequest.Lib.Run
import Prequest.Approval.TicketGroup

/-!
# Sequences of ticket approval responses

`grant_ticket_approval` recomputes the outcome of a ticket at every response
from the siblings that still wait. A rejection closes the ticket and leaves the
other rows of the group pending, so later responses are still taken. None of
them moves the ticket again, because only a ticket that awaits approval is moved.
A ticket that no longer awaits it when the rejection comes is left as it is.

* `rejectionsFinal`: the law for every sequence of such calls.
* `unawaited_rejection`: two sequences that start from other states.
-/

namespace Prequest.Approval

open Prequest.Lib Prequest.Command Prequest.Outbox

section

variable (db : TicketDb)

/-- One response, as a transaction that commits or is rolled back. -/
def respondOne (call : GrantCall) : TicketDb :=
  match grantTicketApproval db call with
  | .ok (db', _) => db'
  | .error _ => db

def AwaitsApproval (ticketId : Nat) : Prop :=
  ∃ t, db.tickets.get? ticketId = some t ∧ t.statusCategory = .pendingApproval

def IsRejected (ticketId : Nat) : Prop :=
  ∃ t, db.tickets.get? ticketId = some t ∧ t.status = "rejected" ∧ t.statusCategory = .closed

def IsApproved (ticketId : Nat) : Prop :=
  ∃ t, db.tickets.get? ticketId = some t ∧ t.status = "new" ∧ t.statusCategory = .new

def Rejects (call : GrantCall) : Prop :=
  ∃ a, db.approvals.get? call.approvalId = some a ∧ a.status = .pending ∧
    ∃ a', (respondOne db call).approvals.get? call.approvalId = some a' ∧ a'.status = .rejected

/-- After every rejection that comes while `p` holds, the ticket is rejected, and nothing is
emitted. -/
def StaysRejected (p : TicketDb → Prop) (ticketId : Nat) (calls : List GrantCall) : Prop :=
  ∀ pre call mid post, calls = pre ++ call :: mid ++ post → p (run respondOne db pre) →
    Rejects (run respondOne db pre) call →
      IsRejected (run respondOne db (pre ++ call :: mid)) ticketId ∧
        (run respondOne db (pre ++ call :: mid)).outbox = (run respondOne db pre).outbox

/-- When a response approves the ticket, each row of the group is approved, or meets `p`. -/
def ApprovedByAll (p : ApprovalRow → Prop) (ticketId : Nat) (members : List Nat)
    (calls : List GrantCall) : Prop :=
  ∀ pre call post, calls = pre ++ call :: post → ¬IsApproved (run respondOne db pre) ticketId →
    IsApproved (run respondOne db (pre ++ [call])) ticketId →
      ∀ r ∈ (run respondOne db (pre ++ [call])).approvals.rows, r.id ∈ members →
        r.status = .approved ∨ p r

/-- The row was rejected or expired before the first response. -/
def OverBefore (r : ApprovalRow) : Prop :=
  r ∈ db.approvals.rows ∧ (r.status = .rejected ∨ r.status = .expired)

/-- A rejection of a ticket that awaits approval is final and silences the automation, and the
ticket is approved only by all. -/
structure RejectionsFinal (ticketId : Nat) (members : List Nat) (calls : List GrantCall) :
    Prop where
  stays : StaysRejected db (AwaitsApproval · ticketId) ticketId calls
  approved : ApprovedByAll db (OverBefore db) ticketId members calls

end

/-! ## What one response changes -/

inductive ResponseEffect (db : TicketDb) (call : GrantCall) : TicketDb → Prop where
  /-- Nothing but the record of the call: it raised, was repeated, or came too late. -/
  | none {db' : TicketDb} (happrovals : db'.approvals = db.approvals)
      (htickets : db'.tickets = db.tickets) (houtbox : db'.outbox = db.outbox) :
      ResponseEffect db call db'
  /-- An answer that leaves the ticket waiting. -/
  | partialApproved {db' : TicketDb} {decision : Decision} {a : ApprovalRow}
      (hanswers : Answers db call decision a) (hwait : 0 < db.remaining call decision a)
      (happrovals : db'.approvals = (db.respond call decision).approvals)
      (htickets : db'.tickets = db.tickets) (houtbox : db'.outbox = db.outbox) :
      ResponseEffect db call db'
  /-- An answer that decides the ticket. -/
  | decided {db' : TicketDb} {decision : Decision} {a : ApprovalRow} {t : TicketRow}
      (hanswers : Answers db call decision a) (hnone : db.remaining call decision a = 0)
      (hticket : db.tickets.get? a.targetEntityId = some t)
      (happrovals : db'.approvals = (db.respond call decision).approvals)
      (htickets : db'.tickets = (db.setTicket call decision a.targetEntityId).tickets)
      (houtbox : emitAll db.outbox (eventsOf call decision t) = .ok db'.outbox) :
      ResponseEffect db call db'

theorem respondOne_effect (db : TicketDb) (call : GrantCall) :
    ResponseEffect db call (respondOne db call) := by
  unfold respondOne
  cases hgrant : grantTicketApproval db call with
  | error e => exact .none rfl rfl rfl
  | ok out =>
    obtain ⟨db', result⟩ := out
    cases grantTicketApproval_cases hgrant with
    | cached => exact .none rfl rfl rfl
    | refused => exact .none rfl rfl rfl
    | partialApproved hanswers hwait => exact .partialApproved hanswers hwait rfl rfl rfl
    | decided hanswers hnone hticket hemit => exact .decided hanswers hnone hticket rfl rfl hemit

variable {db : TicketDb} {decision : Decision} {call : GrantCall}

theorem setTicket_get {ticketId : Nat} {t : TicketRow} (ht : db.tickets.get? ticketId = some t) :
    (db.setTicket call decision ticketId).tickets.get? ticketId =
      some (t.decide decision call.now) := by
  have hid : t.id = ticketId := (Table.get?_eq_some.mp ht).2
  unfold TicketDb.setTicket
  simp [Table.get?_update, ht, Table.updated, hid]

section

variable {t : TicketRow} {decision : Decision} {call : GrantCall}

theorem decide_of_moved (h : t.statusCategory ≠ .pendingApproval) (now : Nat) :
    t.decide decision now = t := if_neg h

theorem decide_category (now : Nat) : (t.decide decision now).statusCategory ≠ .pendingApproval := by
  unfold TicketRow.decide
  split
  · cases decision <;> simp
  · assumption

theorem decide_rejected (h : t.statusCategory = .pendingApproval) (now : Nat) :
    (t.decide .rejected now).status = "rejected" ∧
      (t.decide .rejected now).statusCategory = .closed := by
  unfold TicketRow.decide
  rw [if_pos h]
  exact ⟨rfl, rfl⟩

theorem decide_approved (h : t.statusCategory = .pendingApproval) (now : Nat) :
    (t.decide .approved now).status = "new" ∧ (t.decide .approved now).statusCategory = .new := by
  unfold TicketRow.decide
  rw [if_pos h]
  exact ⟨rfl, rfl⟩

theorem eventsOf_approved (h : t.statusCategory = .pendingApproval) :
    eventsOf call .approved t = postApprovalEvents call t := by
  unfold eventsOf startsAutomation
  rw [(decide_approved h _).2]
  rfl

theorem eventsOf_closed (h : t.statusCategory = .closed) : eventsOf call decision t = [] := by
  have hdecide : t.decide decision call.now = t := decide_of_moved (by rw [h]; decide) call.now
  unfold eventsOf startsAutomation
  rw [hdecide, h]
  simp

end

section

variable {db : TicketDb} {call : GrantCall} {ticketId : Nat} {members : List Nat}

theorem Answers.ticket_eq {a : ApprovalRow} (hgroup : IsGroup db.approvals ticketId members)
    (hmem : call.approvalId ∈ members) (hanswers : Answers db call decision a) :
    a.targetEntityId = ticketId := by
  obtain ⟨ha, hid⟩ := get?_eq_some_iff.mp hanswers.hrow
  exact (hgroup.target a ha (by rw [hid]; exact hmem)).2

theorem IsGroup.respondOne (hgroup : IsGroup db.approvals ticketId members) :
    IsGroup (respondOne db call).approvals ticketId members := by
  cases respondOne_effect db call with
  | none happrovals => rw [happrovals]; exact hgroup
  | partialApproved _ _ happrovals => rw [happrovals]; exact hgroup.respond
  | decided _ _ _ happrovals => rw [happrovals]; exact hgroup.respond

/-- Only an approving answer can be partial. -/
theorem Answers.approved_of_wait {a : ApprovalRow} (hwait : 0 < db.remaining call decision a) :
    decision = .approved := by
  cases decision with
  | approved => rfl
  | rejected => simp [TicketDb.remaining, remainingCount] at hwait

theorem rejects_spec (hgroup : IsGroup db.approvals ticketId members)
    (hmem : call.approvalId ∈ members) (hawaits : AwaitsApproval db ticketId)
    (hrejects : Rejects db call) :
    IsRejected (respondOne db call) ticketId ∧ (respondOne db call).outbox = db.outbox := by
  obtain ⟨a, hrow, hpending, a', hrow', hrejected⟩ := hrejects
  -- The row after a response that answers it with `decision`.
  have hanswered : ∀ {decision : Decision} {b : ApprovalRow}, Answers db call decision b →
      (respondOne db call).approvals = (db.respond call decision).approvals →
      decision = .rejected := by
    intro decision b hanswers happrovals
    rw [happrovals] at hrow'
    obtain ⟨hmem', hid'⟩ := get?_eq_some_iff.mp hrow'
    rcases mem_respond_cases hrow hpending hmem' with hold | hnew
    · exact absurd hid' hold.2
    · rw [hnew] at hrejected
      cases decision with
      | approved => cases hrejected
      | rejected => rfl
  cases respondOne_effect db call with
  | none happrovals =>
    rw [happrovals, hrow] at hrow'
    cases hrow'
    rw [hpending] at hrejected
    cases hrejected
  | partialApproved hanswers hwait happrovals =>
    obtain rfl := hanswered hanswers happrovals
    cases Answers.approved_of_wait hwait
  | @decided _ _ t hanswers _ hticket happrovals htickets houtbox =>
    obtain rfl := hanswered hanswers happrovals
    rw [hanswers.ticket_eq hgroup hmem] at hticket htickets
    obtain ⟨t', ht', hcategory⟩ := hawaits
    obtain rfl : t' = t := Option.some.inj (ht'.symm.trans hticket)
    refine ⟨⟨_, by rw [htickets, setTicket_get hticket], decide_rejected hcategory _⟩, ?_⟩
    exact (Except.ok.inj houtbox).symm

end

/-! ## The two invariants -/

/-- The ticket is closed and the outbox is `outbox`. -/
structure RejectedSince (ticketId : Nat) (members : List Nat)
    (outbox : Table (Event TicketEventKey TicketEvent)) (db : TicketDb) : Prop where
  group : IsGroup db.approvals ticketId members
  ticket : IsRejected db ticketId
  outbox : db.outbox = outbox

/-- A row of the group is as it was in `start`, or approved, or it was rejected and the ticket does
not await approval. -/
structure AnsweredSince (start : TicketDb) (ticketId : Nat) (members : List Nat) (db : TicketDb) :
    Prop where
  group : IsGroup db.approvals ticketId members
  row : ∀ r ∈ db.approvals.rows, r.id ∈ members →
    r ∈ start.approvals.rows ∨ r.status = .approved ∨
      r.status = .rejected ∧ ¬AwaitsApproval db ticketId

section

variable {ticketId : Nat} {members : List Nat}

theorem rejected_of_rejected {outbox : Table (Event TicketEventKey TicketEvent)} (db : TicketDb)
    (call : GrantCall) (hinv : RejectedSince ticketId members outbox db)
    (hmem : call.approvalId ∈ members) :
    RejectedSince ticketId members outbox (respondOne db call) := by
  have hkept : ∀ {db' : TicketDb}, db'.tickets = db.tickets → IsRejected db' ticketId := by
    intro db' htickets
    unfold IsRejected
    rw [htickets]
    exact hinv.ticket
  cases respondOne_effect db call with
  | none _ htickets houtbox =>
    exact ⟨hinv.group.respondOne, hkept htickets, houtbox.trans hinv.outbox⟩
  | partialApproved _ _ _ htickets houtbox =>
    exact ⟨hinv.group.respondOne, hkept htickets, houtbox.trans hinv.outbox⟩
  | @decided decision a t hanswers _ hticket _ htickets houtbox =>
    rw [hanswers.ticket_eq hinv.group hmem] at hticket htickets
    obtain ⟨t', ht', hstatus, hclosed⟩ := hinv.ticket
    obtain rfl : t' = t := Option.some.inj (ht'.symm.trans hticket)
    rw [eventsOf_closed hclosed] at houtbox
    refine ⟨hinv.group.respondOne, ⟨t', ?_, hstatus, hclosed⟩, ?_⟩
    · rw [htickets, setTicket_get hticket, decide_of_moved (by rw [hclosed]; decide)]
    · exact (Except.ok.inj houtbox).symm.trans hinv.outbox

/-- No response puts a ticket up for approval. -/
theorem AwaitsApproval.before (hgroup : IsGroup db.approvals ticketId members)
    (hmem : call.approvalId ∈ members) (h : AwaitsApproval (respondOne db call) ticketId) :
    AwaitsApproval db ticketId := by
  unfold AwaitsApproval at h ⊢
  cases respondOne_effect db call with
  | none _ htickets => rwa [htickets] at h
  | partialApproved _ _ _ htickets => rwa [htickets] at h
  | decided hanswers _ hticket _ htickets =>
    rw [hanswers.ticket_eq hgroup hmem] at hticket htickets
    obtain ⟨t', ht', hcategory⟩ := h
    rw [htickets, setTicket_get hticket] at ht'
    obtain rfl := Option.some.inj ht'
    exact absurd hcategory (decide_category _)

theorem answeredSince_step (start db : TicketDb) (call : GrantCall)
    (hinv : AnsweredSince start ticketId members db) (hmem : call.approvalId ∈ members) :
    AnsweredSince start ticketId members (respondOne db call) := by
  refine ⟨hinv.group.respondOne, fun r hr hrm => ?_⟩
  have hkept : r ∈ db.approvals.rows → r ∈ start.approvals.rows ∨ r.status = .approved ∨
      r.status = .rejected ∧ ¬AwaitsApproval (respondOne db call) ticketId := fun hold =>
    (hinv.row r hold hrm).imp_right (Or.imp_right (And.imp_right fun hnot hawaits =>
      hnot (hawaits.before hinv.group hmem)))
  have hstep := respondOne_effect db call
  cases hstep with
  | none happrovals =>
    rw [happrovals] at hr
    exact hkept hr
  | partialApproved hanswers hwait happrovals =>
    rw [happrovals] at hr
    rcases mem_respond_cases hanswers.hrow hanswers.hpending hr with ⟨hold, _⟩ | rfl
    · exact hkept hold
    · obtain rfl := Answers.approved_of_wait hwait
      exact .inr (.inl rfl)
  | @decided decision a t hanswers _ hticket happrovals htickets =>
    rw [happrovals] at hr
    rcases mem_respond_cases hanswers.hrow hanswers.hpending hr with ⟨hold, _⟩ | rfl
    · exact hkept hold
    cases decision with
    | approved => exact .inr (.inl rfl)
    | rejected =>
      refine .inr (.inr ⟨rfl, ?_⟩)
      rintro ⟨t', ht', hcategory⟩
      rw [hanswers.ticket_eq hinv.group hmem] at hticket htickets
      rw [htickets, setTicket_get hticket] at ht'
      obtain rfl := Option.some.inj ht'
      exact decide_category _ hcategory

/-- A response that approves the ticket found it awaiting approval, and nobody else waiting. -/
theorem approves_spec (hgroup : IsGroup db.approvals ticketId members)
    (hmem : call.approvalId ∈ members) (hbefore : ¬IsApproved db ticketId)
    (hafter : IsApproved (respondOne db call) ticketId) :
    AwaitsApproval db ticketId ∧ ∀ r ∈ (respondOne db call).approvals.rows, r.id ∈ members →
      r.status = .approved ∨ r ∈ db.approvals.rows ∧ r.nonTerminal = false := by
  unfold IsApproved at hbefore hafter
  cases respondOne_effect db call with
  | none _ htickets =>
    rw [htickets] at hafter
    exact absurd hafter hbefore
  | partialApproved _ _ _ htickets =>
    rw [htickets] at hafter
    exact absurd hafter hbefore
  | @decided decision a t hanswers hnone hticket happrovals htickets =>
    rw [hanswers.ticket_eq hgroup hmem] at hticket htickets
    obtain ⟨t', ht', hstatus, hnew⟩ := hafter
    rw [htickets, setTicket_get hticket] at ht'
    obtain rfl := Option.some.inj ht'
    have hawaits : t.statusCategory = .pendingApproval := by
      by_contra hmoved
      rw [decide_of_moved hmoved] at hstatus hnew
      exact hbefore ⟨t, hticket, hstatus, hnew⟩
    refine ⟨⟨t, hticket, hawaits⟩, fun r hr hrm => ?_⟩
    cases decision with
    | rejected =>
      rw [(decide_rejected hawaits _).2] at hnew
      cases hnew
    | approved =>
      rw [happrovals] at hr
      rcases mem_respond_cases hanswers.hrow hanswers.hpending hr with ⟨hold, hne⟩ | rfl
      · exact .inr ⟨hold, (remainingCount_eq_zero_iff hgroup hanswers.hrow hmem
          hanswers.hpending).mp hnone r hold hrm hne⟩
      · exact .inl rfl

end

/-! ## Every sequence of responses -/

/-- Whatever the states of the ticket and of the rows are at the start, and in whatever order the
rows of the group are answered. -/
theorem rejectionsFinal {db : TicketDb} {ticketId : Nat} {members : List Nat}
    {calls : List GrantCall} (hgroup : IsGroup db.approvals ticketId members)
    (hcalls : ∀ call ∈ calls, call.approvalId ∈ members) :
    RejectionsFinal db ticketId members calls := by
  have hgroup' : ∀ pre, IsGroup (run respondOne db pre).approvals ticketId members := fun pre =>
    run_invariant (I := fun s : TicketDb => IsGroup s.approvals ticketId members)
      (fun _ _ h => h.respondOne) hgroup pre
  constructor
  · intro pre call mid post hsplit hawaits hrejects
    have hmem : ∀ c ∈ call :: mid, c.approvalId ∈ members := fun c hc =>
      hcalls c (by rw [hsplit]; exact List.mem_append_left _ (List.mem_append_right _ hc))
    obtain ⟨hclosed, hsilent⟩ :=
      rejects_spec (hgroup' pre) (hmem call List.mem_cons_self) hawaits hrejects
    rw [run_append, run_cons]
    have hmid := guarded_of_forall (f := respondOne) (s := respondOne (run respondOne db pre) call)
      fun c hc => hmem c (List.mem_cons_of_mem _ hc)
    have hinv := hmid.invariant rejected_of_rejected ⟨(hgroup' pre).respondOne, hclosed, hsilent⟩
    exact ⟨hinv.ticket, hinv.outbox⟩
  · rintro pre call post rfl hbefore hafter r hr hrm
    rw [run_append, run_cons, run_nil] at hafter hr
    have hpre := guarded_of_forall (f := respondOne) (s := db)
      fun c hc => hcalls c (List.mem_append_left _ hc)
    have hinv := hpre.invariant (answeredSince_step db) ⟨hgroup, fun r hr _ => .inl hr⟩
    obtain ⟨hawaits, hrows⟩ := approves_spec (hgroup' pre) (hcalls call (by simp)) hbefore hafter
    rcases hrows r hr hrm with happroved | ⟨hold, hover⟩
    · exact .inl happroved
    rcases hinv.row r hold hrm with hstart | happroved | ⟨_, hnot⟩
    · cases hstatus : r.status with
      | approved => exact .inl rfl
      | rejected => exact .inr ⟨hstart, .inl hstatus⟩
      | expired => exact .inr ⟨hstart, .inr hstatus⟩
      | pending | delegated => simp [ApprovalRow.nonTerminal, hstatus] at hover
    · exact .inl happroved
    · exact absurd hawaits hnot

/-! ## A chain of three -/

def chainRowOf (id : Nat) : ApprovalRow where
  id := id
  targetEntityType := .ticket
  targetEntityId := 1
  approvalChainId := some 7

def ticketIn (status : String) (category : StatusCategory) : TicketRow where
  id := 1
  status := status
  statusCategory := category
  ticketTypeId := none
  workflowId := none
  slaId := none
  locationId := none
  assetId := none
  priority := "medium"
  closedAt := none
  updatedAt := 0

def approvalsOf (ticket : TicketRow) (rows : List ApprovalRow)
    (h : (rows.map ApprovalRow.id).Nodup) : TicketDb where
  approvals := ⟨rows, h⟩
  tickets := ⟨[ticket], List.nodup_singleton _⟩
  users := []
  commandOperations := Table.empty
  ticketActivities := []
  domainEvents := []
  outbox := Table.empty

def threeApprovals : TicketDb :=
  approvalsOf (ticketIn "awaiting_approval" .pendingApproval)
    [chainRowOf 10, chainRowOf 11, chainRowOf 12] (by decide)

def responseTo (approvalId : Nat) (decision key : String) : GrantCall where
  approvalId := approvalId
  actorUserId := none
  decision := some decision
  comments := none
  idempotencyKey := key
  now := 100

def rejectThenApprove : List GrantCall :=
  [responseTo 10 "rejected" "a", responseTo 11 "approved" "b", responseTo 12 "approved" "c"]

theorem rejectionsFinal_rejectThenApprove :
    RejectionsFinal threeApprovals 1 [10, 11, 12] rejectThenApprove :=
  rejectionsFinal (by decide) (by decide)

/-- The rows of a ticket that has started its work, as a workflow asks for them. -/
def startedTicket : TicketDb :=
  approvalsOf (ticketIn "new" .new) [chainRowOf 10, chainRowOf 11] (by decide)

def oneExpired : TicketDb :=
  approvalsOf (ticketIn "awaiting_approval" .pendingApproval)
    [{ chainRowOf 10 with status := .expired }, chainRowOf 11] (by decide)

/-- The rejection leaves a ticket that does not await approval as it is, and the approval after it
starts the automation. An expired row does not keep a ticket from being approved. -/
theorem unawaited_rejection :
    (¬ ∀ db ticketId members calls, IsGroup db.approvals ticketId members →
      (∀ call ∈ calls, call.approvalId ∈ members) →
        StaysRejected db (fun _ => True) ticketId calls) ∧
    ¬ ∀ db ticketId members calls, IsGroup db.approvals ticketId members →
      (∀ call ∈ calls, call.approvalId ∈ members) →
        ApprovedByAll db (fun _ => False) ticketId members calls := by
  constructor
  · intro hlaw
    obtain ⟨⟨t, ht, hstatus, _⟩, houtbox⟩ := hlaw startedTicket 1 [10, 11]
      [responseTo 10 "rejected" "a", responseTo 11 "approved" "b"] (by decide) (by decide) []
      (responseTo 10 "rejected" "a") [responseTo 11 "approved" "b"] [] rfl trivial
      ⟨chainRowOf 10, by decide, rfl, (chainRowOf 10).respond .rejected 100 none, by decide, rfl⟩
    have hemitted : (run respondOne startedTicket
        [responseTo 10 "rejected" "a", responseTo 11 "approved" "b"]).outbox.rows ≠
          startedTicket.outbox.rows := by decide
    exact hemitted (congrArg Table.rows houtbox)
  · intro hlaw
    have hexpired := hlaw oneExpired 1 [10, 11] [responseTo 11 "approved" "b"] (by decide)
      (by decide) [] (responseTo 11 "approved" "b") [] rfl (by
        rintro ⟨t, ht, hstatus, _⟩
        obtain rfl := Option.some.inj ht
        exact absurd hstatus (by decide)) ⟨_, rfl, rfl, rfl⟩
      { chainRowOf 10 with status := .expired } (by decide) (by decide)
    rcases hexpired with h | h
    · cases h
    · exact h

end Prequest.Approval
