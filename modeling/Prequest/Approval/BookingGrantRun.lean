import Prequest.Lib.Run
import Prequest.Approval.BookingGrant

/-!
# Sequences of booking approval answers

Calls of `grant_booking_approval` for one booking run one after another. Three
laws are stated for a whole sequence: the booking leaves `pending_approval`
once, `approval.granted` is emitted on the call that makes it leave, and it is
confirmed only when every chain is satisfied. The function looks at the chain of
the answered row when its threshold is `any`, and at the pending and rejected
rows of the booking when it is `all`; with a second chain on the booking neither
of these is the law.

* `resolvesOnce_of_guarded`: the laws for every sequence of such calls.
-/

namespace Prequest.Booking

open Prequest.Lib Prequest.Outbox Prequest.Approval

/-- One answer, as a transaction that commits or is rolled back. -/
def grantOne (ruleInTenant : Nat → Bool) (db : BookingDb) (call : BookingGrantCall) : BookingDb :=
  match grantBookingApproval ruleInTenant db call with
  | .ok (db', _) => db'
  | .error _ => db

theorem grantOne_step (ruleInTenant : Nat → Bool) (db : BookingDb) (call : BookingGrantCall) :
    BookingGrantStep db call (grantOne ruleInTenant db call) := by
  unfold grantOne
  cases hgrant : grantBookingApproval ruleInTenant db call with
  | error e => exact .unchanged rfl
  | ok out =>
    obtain ⟨db', result⟩ := out
    exact grantBookingApproval_cases hgrant

/-! ## The laws -/

/-- `s` is a row of the chain of `r` on the booking. -/
def inChainOf (bookingId : Nat) (r s : ApprovalRow) : Bool :=
  onBooking bookingId s && (s.id == r.id || sameChain r s)

/-- The chain of `r` on the booking is satisfied under its threshold. -/
def Satisfied (approvals : Table ApprovalRow) (bookingId : Nat) (r : ApprovalRow) : Prop :=
  match r.chainThreshold with
  | .all => ∀ s ∈ approvals.rows, inChainOf bookingId r s = true →
      s.status = .approved ∨ s.status = .expired
  | .any => (∃ s ∈ approvals.rows, inChainOf bookingId r s = true ∧ s.status = .approved) ∨
      ∀ s ∈ approvals.rows, inChainOf bookingId r s = true → s.status = .expired

instance (approvals : Table ApprovalRow) (bookingId : Nat) (r : ApprovalRow) :
    Decidable (Satisfied approvals bookingId r) := by
  unfold Satisfied
  split <;> infer_instance

def AllSatisfied (approvals : Table ApprovalRow) (bookingId : Nat) : Prop :=
  ∀ r ∈ approvals.rows, onBooking bookingId r = true →
    r.status ≠ .rejected ∧ Satisfied approvals bookingId r

section

variable (ruleInTenant : Nat → Bool) (db : BookingDb) (bookingId : Nat) (call : BookingGrantCall)

/-- The call takes the booking out of `pending_approval`. -/
def Leaves : Prop :=
  db.status? bookingId = some .pendingApproval ∧
    (grantOne ruleInTenant db call).status? bookingId ≠ some .pendingApproval

def IsGranted (e : Event BookingEventKey BookingEvent) : Prop :=
  ∃ approvalId decision w n, e.payload = .approvalGranted approvalId bookingId decision w n

/-- The call emits `approval.granted` for the booking. -/
def Emits : Prop :=
  ∃ e ∈ (grantOne ruleInTenant db call).outbox.rows, e ∉ db.outbox.rows ∧ IsGranted bookingId e

/-- The answered approval belongs to a workflow, which alone hears of the decision. -/
def HasWorkflow : Prop :=
  ∃ a, db.approvals.get? call.approvalId = some a ∧ a.workflowInstanceId.isSome = true

def RejectsRow : Prop :=
  ∃ a, db.approvals.get? call.approvalId = some a ∧ a.status = .pending ∧
    ∃ a', (grantOne ruleInTenant db call).approvals.get? call.approvalId = some a' ∧
      a'.status = .rejected

end

/-- The three laws for a sequence of answers. -/
structure ResolvesOnce (ruleInTenant : Nat → Bool) (db : BookingDb) (bookingId : Nat)
    (calls : List BookingGrantCall) : Prop where
  leavesOnce : ∀ pre call mid call' post, calls = pre ++ call :: (mid ++ call' :: post) →
    Leaves ruleInTenant (run (grantOne ruleInTenant) db pre) bookingId call →
    ¬ Leaves ruleInTenant (run (grantOne ruleInTenant) db (pre ++ call :: mid)) bookingId call'
  emitsOnLeaving : ∀ pre call post, calls = pre ++ call :: post →
    (Emits ruleInTenant (run (grantOne ruleInTenant) db pre) bookingId call ↔
      Leaves ruleInTenant (run (grantOne ruleInTenant) db pre) bookingId call ∧
        HasWorkflow (run (grantOne ruleInTenant) db pre) call)
  confirmedOnlyComplete : ∀ pre call post, calls = pre ++ call :: post →
    Leaves ruleInTenant (run (grantOne ruleInTenant) db pre) bookingId call →
    (run (grantOne ruleInTenant) db (pre ++ [call])).status? bookingId = some .confirmed →
    AllSatisfied (run (grantOne ruleInTenant) db (pre ++ [call])).approvals bookingId
  cancelledIff : ∀ pre post, calls = pre ++ post →
    ((run (grantOne ruleInTenant) db pre).status? bookingId = some .cancelled ↔
      ∃ pre' call mid, pre = pre' ++ call :: mid ∧
        (run (grantOne ruleInTenant) db pre').status? bookingId = some .pendingApproval ∧
        RejectsRow ruleInTenant (run (grantOne ruleInTenant) db pre') call)

def Announced (db : BookingDb) (bookingId : Nat) : Prop :=
  ∀ e ∈ db.outbox.rows, ∀ approvalId decision w n,
    e.payload = .approvalGranted approvalId bookingId decision w n →
      ∀ r ∈ db.approvals.rows, r.id = approvalId → r.status ≠ .pending

def UniformThreshold (approvals : Table ApprovalRow) : Prop :=
  ∀ r ∈ approvals.rows, ∀ s ∈ approvals.rows, sameChain r s = true →
    r.chainThreshold = s.chainThreshold

structure Awaiting (db : BookingDb) (bookingId : Nat) (calls : List BookingGrantCall) : Prop where
  pending : db.status? bookingId = some .pendingApproval
  uniform : UniformThreshold db.approvals
  answers : ∀ call ∈ calls, ∀ a, db.approvals.get? call.approvalId = some a →
    onBooking bookingId a = true
  announced : Announced db bookingId

/-- A call that resolves finds the booking pending, unless it has no workflow to tell; if it
approves, nobody has rejected, the other chains are satisfied, and nobody of an `all` chain
has delegated. -/
def ResolvesOnlyComplete (bookingId : Nat) (db : BookingDb) (call : BookingGrantCall) : Prop :=
  ∀ decision a, BookingAnswers db call decision a → Resolves db call decision a →
    (db.status? bookingId = some .pendingApproval ∨ a.workflowInstanceId = none) ∧
    (decision = .approved → db.status? bookingId = some .pendingApproval →
      ∀ r ∈ db.approvals.rows, onBooking bookingId r = true → r.id ≠ a.id →
        r.status ≠ .rejected ∧
        (sameChain a r = false → Satisfied db.approvals bookingId r) ∧
        (sameChain a r = true → a.chainThreshold = .all → r.status ≠ .delegated))

/-! ## The rows after a resolving answer -/

/-- Whether a row expires when the answer to `a` resolves the booking. -/
def expires (decision : Decision) (a r : ApprovalRow) : Bool :=
  r.status == .pending && match decision, a.chainThreshold with
    | .rejected, _ => onBooking a.targetEntityId r
    | .approved, .any => sameChain a r
    | .approved, .all => false

/-- The status of a row after an answer to `a` that resolves the booking. -/
def statusAfter (decision : Decision) (a r : ApprovalRow) : ApprovalStatus :=
  if r.id = a.id then decision.toStatus
  else if expires decision a r then .expired
  else r.status

section

variable {db : BookingDb} {call : BookingGrantCall} {decision : Decision} {a : ApprovalRow}

theorem BookingAnswers.ne_of_not_pending (hanswers : BookingAnswers db call decision a)
    {r : ApprovalRow} (hr : r ∈ db.approvals.rows) (hnp : r.status ≠ .pending) : r.id ≠ a.id := by
  intro hra
  obtain ⟨ha, _⟩ := get?_eq_some_iff.mp hanswers.hrow
  rw [db.approvals.eq_of_key_eq hr ha hra] at hnp
  exact hnp hanswers.hpending

theorem statusAfter_of_not_pending (hanswers : BookingAnswers db call decision a)
    {r : ApprovalRow} (hr : r ∈ db.approvals.rows) (hnp : r.status ≠ .pending) :
    statusAfter decision a r = r.status := by
  have hexpires : expires decision a r = false := by
    unfold expires
    simp [hnp]
  rw [statusAfter, if_neg (hanswers.ne_of_not_pending hr hnp), hexpires]
  rfl

theorem exists_respondRows (hanswers : BookingAnswers db call decision a) :
    ∃ g : ApprovalRow → ApprovalRow,
      (db.respond call decision).approvals.rows = db.approvals.rows.map g ∧
      ∀ r ∈ db.approvals.rows, (g r).AnswerOf r ∧
        (g r).status = if r.id = a.id then decision.toStatus else r.status := by
  obtain ⟨ha, hid⟩ := get?_eq_some_iff.mp hanswers.hrow
  refine ⟨_, rfl, ?_⟩
  intro r hr
  by_cases hra : r.id = a.id
  · have hrow : r = a := db.approvals.eq_of_key_eq hr ha hra
    subst hrow
    have htrue : (r.id == call.approvalId && r.status == .pending) = true := by
      simp [hid, hanswers.hpending]
    simp only [Table.updated, htrue, if_true, ApprovalRow.AnswerOf, and_self]
  · have hfalse : (r.id == call.approvalId && r.status == .pending) = false := by
      rw [← hid]
      simp [hra]
    simp only [Table.updated, hfalse, if_neg hra, Bool.false_eq_true, if_false,
      ApprovalRow.AnswerOf, and_self]

theorem exists_resolvedRows (hanswers : BookingAnswers db call decision a) :
    ∃ g : ApprovalRow → ApprovalRow,
      (db.resolvedApprovals call decision a).rows = db.approvals.rows.map g ∧
      ∀ r ∈ db.approvals.rows, (g r).AnswerOf r ∧ (g r).status = statusAfter decision a r := by
  obtain ⟨g, hrows, hg⟩ := exists_respondRows hanswers
  obtain ⟨_, hid⟩ := get?_eq_some_iff.mp hanswers.hrow
  -- The expiry that follows the answer, by its condition.
  have hexpire : ∀ (p : ApprovalRow → Bool) (comments : String),
      (∀ r ∈ db.approvals.rows, p (g r) = (decide (r.id ≠ a.id) && expires decision a r)) →
      ∃ g' : ApprovalRow → ApprovalRow,
        ((db.respond call decision).approvals.update p (expire call.now comments)).rows =
          db.approvals.rows.map g' ∧
        ∀ r ∈ db.approvals.rows, (g' r).AnswerOf r ∧ (g' r).status = statusAfter decision a r := by
    intro p comments hp
    refine ⟨fun r => Table.updated p (expire call.now comments) (g r), ?_, ?_⟩
    · simp only [Table.update, hrows, List.map_map]
      rfl
    · intro r hr
      obtain ⟨hanswer, hstatus⟩ := hg r hr
      have hpr := hp r hr
      by_cases hra : r.id = a.id
      · have hfalse : p (g r) = false := by
          rw [hpr]
          simp [hra]
        simp only [Table.updated_of_false hfalse, statusAfter, if_pos hra]
        exact ⟨hanswer, by rw [hstatus, if_pos hra]⟩
      · cases hexp : expires decision a r with
        | true =>
          have htrue : p (g r) = true := by
            rw [hpr]
            simp [hra, hexp]
          simp only [Table.updated_of_true htrue, statusAfter, if_neg hra, hexp, if_true]
          refine ⟨?_, rfl⟩
          exact ApprovalRow.AnswerOf.trans rfl hanswer
        | false =>
          have hfalse : p (g r) = false := by
            rw [hpr]
            simp [hexp]
          simp only [Table.updated_of_false hfalse, statusAfter, if_neg hra, hexp]
          exact ⟨hanswer, by rw [hstatus, if_neg hra]; rfl⟩
  have hid' : call.approvalId = a.id := hid.symm
  have htarget : ∀ r ∈ db.approvals.rows, (g r).targetEntityId = r.targetEntityId := fun r hr =>
    (hg r hr).1.targetEntityId_eq
  have hchain : ∀ r ∈ db.approvals.rows, (g r).approvalChainId = r.approvalChainId := fun r hr =>
    (hg r hr).1.approvalChainId_eq
  have hkey : ∀ r ∈ db.approvals.rows, (g r).id = r.id := fun r hr =>
    (hg r hr).1.id_eq
  cases decision with
  | rejected =>
    refine hexpire _ _ ?_
    intro r hr
    simp only [onBooking, expires, htarget r hr, (hg r hr).2]
    by_cases hra : r.id = a.id
    · simp [hra, Decision.toStatus]
    · simp [hra, Bool.and_comm]
  | approved =>
    cases hthreshold : a.chainThreshold with
    | any =>
      simp only [BookingDb.resolvedApprovals, hthreshold]
      refine hexpire _ _ ?_
      intro r hr
      simp only [sameChain, expires, hchain r hr, hkey r hr, hthreshold, (hg r hr).2, hid']
      by_cases hra : r.id = a.id
      · simp [hra]
      · simp [hra, Bool.and_comm, Bool.and_left_comm]
    | all =>
      simp only [BookingDb.resolvedApprovals, hthreshold]
      refine ⟨g, hrows, ?_⟩
      intro r hr
      refine ⟨(hg r hr).1, ?_⟩
      simp only [(hg r hr).2, statusAfter, expires, hthreshold, Bool.and_false]
      rfl

end

/-! ## What a call keeps -/

theorem exists_grantOneRows (ruleInTenant : Nat → Bool) (db : BookingDb)
    (call : BookingGrantCall) :
    ∃ g : ApprovalRow → ApprovalRow,
      (grantOne ruleInTenant db call).approvals.rows = db.approvals.rows.map g ∧
      ∀ r ∈ db.approvals.rows, (g r).AnswerOf r ∧
        (r.status ≠ .pending → (g r).status = r.status) := by
  cases grantOne_step ruleInTenant db call with
  | unchanged hsame =>
    rw [hsame]
    exact ⟨id, (List.map_id _).symm, fun r _ => ⟨.refl r, fun _ => rfl⟩⟩
  | answered hanswers _ hsame =>
    obtain ⟨g, hrows, hg⟩ := exists_respondRows hanswers
    rw [hsame]
    refine ⟨g, hrows, fun r hr => ⟨(hg r hr).1, fun hnp => ?_⟩⟩
    rw [(hg r hr).2, if_neg (hanswers.ne_of_not_pending hr hnp)]
  | resolved hanswers _ happrovals =>
    obtain ⟨g, hrows, hg⟩ := exists_resolvedRows hanswers
    rw [happrovals]
    refine ⟨g, hrows, fun r hr => ⟨(hg r hr).1, fun hnp => ?_⟩⟩
    rw [(hg r hr).2, statusAfter_of_not_pending hanswers hr hnp]

variable {db : BookingDb}

theorem UniformThreshold.grantOne (h : UniformThreshold db.approvals)
    (ruleInTenant : Nat → Bool) (call : BookingGrantCall) :
    UniformThreshold (grantOne ruleInTenant db call).approvals := by
  obtain ⟨g, hrows, hg⟩ := exists_grantOneRows ruleInTenant db call
  intro r' hr' s' hs' hsame
  rw [hrows] at hr' hs'
  obtain ⟨r, hr, rfl⟩ := List.mem_map.mp hr'
  obtain ⟨s, hs, rfl⟩ := List.mem_map.mp hs'
  have hr := (hg r hr).1
  have hs := (hg s hs).1
  rw [hr.chainThreshold_eq, hs.chainThreshold_eq]
  refine h r ‹_› s ‹_› ?_
  unfold sameChain at hsame ⊢
  rwa [hr.approvalChainId_eq, hs.approvalChainId_eq] at hsame

variable {bookingId : Nat}

theorem onBooking_grantOne {approvalId : Nat} (ruleInTenant : Nat → Bool) (call : BookingGrantCall)
    (h : ∀ a, db.approvals.get? approvalId = some a → onBooking bookingId a = true) :
    ∀ a, (grantOne ruleInTenant db call).approvals.get? approvalId = some a →
      onBooking bookingId a = true := by
  obtain ⟨g, hrows, hg⟩ := exists_grantOneRows ruleInTenant db call
  intro a' ha'
  obtain ⟨hmem, hid⟩ := get?_eq_some_iff.mp ha'
  rw [hrows] at hmem
  obtain ⟨a, ha, rfl⟩ := List.mem_map.mp hmem
  have hanswer := (hg a ha).1
  have hon := h a (get?_eq_some_iff.mpr ⟨ha, hanswer.id_eq.symm.trans hid⟩)
  unfold onBooking at hon ⊢
  rwa [hanswer.targetEntityId_eq]

theorem status?_transition (db : BookingDb) (bookingId bookingId' : Nat) (st : BookingStatus) :
    (db.transition bookingId st).status? bookingId' =
      if bookingId' = bookingId ∧ db.status? bookingId' = some .pendingApproval then some st
      else db.status? bookingId' := by
  simp only [BookingDb.status?, BookingDb.transition, Table.get?_update]
  rcases Option.eq_none_or_eq_some (db.bookings.get? bookingId') with hget | ⟨b, hget⟩
  · simp [hget]
  · have hid : b.id = bookingId' := (Table.get?_eq_some.mp hget).2
    simp only [hget, Option.map_some, Option.some.injEq, Table.updated, waitingBooking, hid]
    by_cases hwait : bookingId' = bookingId ∧ b.status = .pendingApproval
    · rw [if_pos hwait, if_pos (by simpa using hwait)]
    · rw [if_neg hwait, if_neg (by simpa using hwait)]

theorem status?_grantOne (ruleInTenant : Nat → Bool) {call : BookingGrantCall}
    (hon : ∀ a, db.approvals.get? call.approvalId = some a → onBooking bookingId a = true) :
    (grantOne ruleInTenant db call).status? bookingId = db.status? bookingId ∨
      db.status? bookingId = some .pendingApproval ∧
        ∃ decision a, BookingAnswers db call decision a ∧ Resolves db call decision a ∧
          (grantOne ruleInTenant db call).approvals = db.resolvedApprovals call decision a ∧
          (grantOne ruleInTenant db call).status? bookingId = some (resolvedStatus decision) := by
  cases grantOne_step ruleInTenant db call with
  | unchanged hsame => exact .inl (by rw [hsame])
  | answered _ _ hsame => exact .inl (by rw [hsame]; rfl)
  | @resolved decision a hanswers hresolves happrovals hbookings =>
    have htarget : a.targetEntityId = bookingId := by simpa [onBooking] using hon a hanswers.hrow
    have hstatus : (grantOne ruleInTenant db call).status? bookingId =
        (db.transition bookingId (resolvedStatus decision)).status? bookingId := by
      unfold BookingDb.status?
      rw [hbookings, htarget]
    rw [hstatus, status?_transition]
    by_cases hpending : db.status? bookingId = some .pendingApproval
    · rw [if_pos ⟨rfl, hpending⟩]
      exact .inr ⟨hpending, decision, a, hanswers, hresolves, happrovals, rfl⟩
    · rw [if_neg (fun h => hpending h.2)]
      exact .inl rfl

section

variable {ruleInTenant : Nat → Bool} {db : BookingDb} {bookingId : Nat} {call : BookingGrantCall}

theorem not_isGranted_of_isSetupEvent {e : Event BookingEventKey BookingEvent}
    (h : IsSetupEvent e) : ¬ IsGranted bookingId e := by
  obtain ⟨_, _, _, _, hsetup⟩ := h
  intro hgranted
  obtain ⟨_, _, _, _, hpayload⟩ := hgranted
  rw [hsetup] at hpayload
  cases hpayload

variable {decision : Decision} {a : ApprovalRow}

theorem not_pending_of_resolved {r' : ApprovalRow} (hanswers : BookingAnswers db call decision a)
    (hr' : r' ∈ (db.resolvedApprovals call decision a).rows) (hid : r'.id = call.approvalId) :
    r'.status = decision.toStatus := by
  obtain ⟨g, hrows, hg⟩ := exists_resolvedRows hanswers
  rw [hrows] at hr'
  obtain ⟨r, hr, rfl⟩ := List.mem_map.mp hr'
  obtain ⟨hanswer, hstatus⟩ := hg r hr
  obtain ⟨_, haid⟩ := get?_eq_some_iff.mp hanswers.hrow
  rw [hstatus, statusAfter, if_pos (by rw [← hanswer.id_eq, hid, haid])]

theorem Announced.grantOne (h : Announced db bookingId) :
    Announced (grantOne ruleInTenant db call) bookingId := by
  -- An event of before concerns a row that was answered before, which keeps its status.
  have hold : ∀ e ∈ db.outbox.rows, ∀ approvalId decision w n,
      e.payload = .approvalGranted approvalId bookingId decision w n →
        ∀ r ∈ (Prequest.Booking.grantOne ruleInTenant db call).approvals.rows,
          r.id = approvalId → r.status ≠ .pending := by
    intro e he approvalId decision w n hpayload r' hr' hid
    obtain ⟨g, hrows, hg⟩ := exists_grantOneRows ruleInTenant db call
    rw [hrows] at hr'
    obtain ⟨r, hr, rfl⟩ := List.mem_map.mp hr'
    obtain ⟨hanswer, hkept⟩ := hg r hr
    have hnp := h e he approvalId decision w n hpayload r hr (hanswer.id_eq.symm.trans hid)
    rw [hkept hnp]
    exact hnp
  intro e he approvalId decision w n hpayload
  cases grantOne_step ruleInTenant db call with
  | unchanged hsame => exact hold e (by rwa [hsame] at he) approvalId decision w n hpayload
  | answered _ _ hsame => exact hold e (by rwa [hsame] at he) approvalId decision w n hpayload
  | @resolved decision' a hanswers _ happrovals _ _ _ _ hnew =>
    rcases hnew e he with hin | hsetup | ⟨w', _, rfl⟩
    · exact hold e hin approvalId decision w n hpayload
    · exact absurd ⟨_, _, _, _, hpayload⟩ (not_isGranted_of_isSetupEvent hsetup)
    · simp only [grantedEvent, BookingEvent.approvalGranted.injEq] at hpayload
      intro r' hr' hid
      rw [happrovals] at hr'
      rw [not_pending_of_resolved hanswers hr' (by rw [hid, hpayload.1])]
      cases decision' <;> decide

theorem emits_iff (hannounced : Announced db bookingId)
    (hon : ∀ a, db.approvals.get? call.approvalId = some a → onBooking bookingId a = true)
    (hok : ResolvesOnlyComplete bookingId db call) :
    Emits ruleInTenant db bookingId call ↔
      Leaves ruleInTenant db bookingId call ∧ HasWorkflow db call := by
  have hresolvedStatus : ∀ decision, some (resolvedStatus decision) ≠
      some BookingStatus.pendingApproval := by
    intro decision
    cases decision <;> decide
  constructor
  · intro hemits
    obtain ⟨e, he, hfresh, hgranted⟩ := hemits
    cases grantOne_step ruleInTenant db call with
    | unchanged hsame => exact absurd (by rwa [hsame] at he) hfresh
    | answered _ _ hsame => exact absurd (by rwa [hsame] at he) hfresh
    | @resolved decision a hanswers hresolves _ hbookings _ _ _ hnew =>
      rcases hnew e he with hin | hsetup | ⟨w, hw, rfl⟩
      · exact absurd hin hfresh
      · exact absurd hgranted (not_isGranted_of_isSetupEvent hsetup)
      · have hworkflow : a.workflowInstanceId ≠ none := by rw [hw]; exact Option.some_ne_none w
        have hpending := ((hok decision a hanswers hresolves).1).resolve_right hworkflow
        refine ⟨⟨hpending, ?_⟩, a, hanswers.hrow, by rw [hw]; rfl⟩
        have htarget : a.targetEntityId = bookingId := by
          simpa [onBooking] using hon a hanswers.hrow
        unfold BookingDb.status?
        rw [hbookings, htarget]
        have hstatus := status?_transition db bookingId bookingId (resolvedStatus decision)
        rw [if_pos ⟨rfl, hpending⟩] at hstatus
        unfold BookingDb.status? at hstatus
        rw [hstatus]
        exact hresolvedStatus decision
  · intro hleaves
    obtain ⟨⟨hpending, hleft⟩, a, ha, hworkflow⟩ := hleaves
    cases grantOne_step ruleInTenant db call with
    | unchanged hsame =>
      rw [hsame] at hleft
      exact absurd hpending hleft
    | answered _ _ hsame =>
      rw [hsame] at hleft
      exact absurd hpending hleft
    | @resolved decision a' hanswers _ _ _ _ _ hgranted _ =>
      have hrow := hanswers.hrow
      rw [ha] at hrow
      cases hrow
      obtain ⟨w, hw⟩ := Option.isSome_iff_exists.mp hworkflow
      have htarget : a.targetEntityId = bookingId := by simpa [onBooking] using hon a ha
      refine ⟨_, hgranted w hw, ?_, call.approvalId, decision, w, a.workflowNodeId, ?_⟩
      · -- The row was pending, so its decision was not announced before.
        intro hin
        obtain ⟨hmem, hid⟩ := get?_eq_some_iff.mp ha
        exact hannounced _ hin call.approvalId decision w a.workflowNodeId
          (by rw [← htarget]; rfl) a hmem hid hanswers.hpending
      · rw [← htarget]
        rfl

theorem resolvedStatus_eq_confirmed
    (h : some (resolvedStatus decision) = some BookingStatus.confirmed) :
    decision = .approved := by
  cases decision with
  | approved => rfl
  | rejected => cases h

variable {r : ApprovalRow} {g : ApprovalRow → ApprovalRow}

theorem inChainOf_answerOf {r' s s' : ApprovalRow} (hr : r'.AnswerOf r) (hs : s'.AnswerOf s) :
    inChainOf bookingId r' s' = inChainOf bookingId r s := by
  simp only [inChainOf, onBooking, sameChain, hr.id_eq, hs.id_eq, hr.approvalChainId_eq,
    hs.approvalChainId_eq, hs.targetEntityId_eq]

theorem Satisfied.of_map {approvals approvals' : Table ApprovalRow}
    (hrows : approvals'.rows = approvals.rows.map g) (hg : ∀ s ∈ approvals.rows, (g s).AnswerOf s)
    (hr : r ∈ approvals.rows)
    (hkept : ∀ s ∈ approvals.rows, inChainOf bookingId r s = true → (g s).status = s.status)
    (h : Satisfied approvals bookingId r) : Satisfied approvals' bookingId (g r) := by
  have hback : ∀ s' ∈ approvals'.rows, inChainOf bookingId (g r) s' = true →
      ∃ s ∈ approvals.rows, inChainOf bookingId r s = true ∧ s'.status = s.status := by
    intro s' hs' hchain
    rw [hrows] at hs'
    obtain ⟨s, hs, rfl⟩ := List.mem_map.mp hs'
    rw [inChainOf_answerOf (hg r hr) (hg s hs)] at hchain
    exact ⟨s, hs, hchain, hkept s hs hchain⟩
  unfold Satisfied at h ⊢
  rw [(hg r hr).chainThreshold_eq]
  split at h
  · intro s' hs' hchain
    obtain ⟨s, hs, hrs, hstatus⟩ := hback s' hs' hchain
    rw [hstatus]
    exact h s hs hrs
  · rcases h with ⟨s, hs, hchain, happroved⟩ | hexpired
    · refine .inl ⟨g s, ?_, ?_, ?_⟩
      · rw [hrows]
        exact List.mem_map_of_mem hs
      · rwa [inChainOf_answerOf (hg r hr) (hg s hs)]
      · rw [hkept s hs hchain, happroved]
    · refine .inr ?_
      intro s' hs' hchain
      obtain ⟨s, hs, hrs, hstatus⟩ := hback s' hs' hchain
      rw [hstatus]
      exact hexpired s hs hrs

theorem sameChain_trans {s : ApprovalRow} (h : sameChain r s = true)
    (h' : sameChain a s = true) : sameChain a r = true := by
  simp only [sameChain, Bool.and_eq_true, beq_iff_eq] at h h' ⊢
  exact ⟨h'.1, h.2.symm.trans h'.2⟩

theorem sameChain_symm (h : sameChain a r = true) : sameChain r a = true := by
  simp only [sameChain, Bool.and_eq_true, beq_iff_eq] at h ⊢
  exact ⟨by rw [h.2]; exact h.1, h.2.symm⟩

theorem statusAfter_of_other (hra : r.id ≠ a.id)
    (hexpires : expires decision a r = false) : statusAfter decision a r = r.status := by
  rw [statusAfter, if_neg hra, hexpires]
  rfl

theorem expires_of_otherChain (h : sameChain a r = false) : expires .approved a r = false := by
  unfold expires
  cases a.chainThreshold <;> simp [h]

theorem ownChain_satisfied (hanswers : BookingAnswers db call .approved a)
    (hresolves : Resolves db call .approved a) (hon : onBooking bookingId a = true)
    (huniform : UniformThreshold db.approvals)
    (hdelegated : ∀ s ∈ db.approvals.rows, onBooking bookingId s = true → s.id ≠ a.id →
      sameChain a s = true → a.chainThreshold = .all → s.status ≠ .delegated)
    (hrows : (db.resolvedApprovals call .approved a).rows = db.approvals.rows.map g)
    (hg : ∀ s ∈ db.approvals.rows, (g s).AnswerOf s ∧ (g s).status = statusAfter .approved a s)
    (hr : r ∈ db.approvals.rows) (hown : r.id = a.id ∨ sameChain a r = true) :
    Satisfied (db.resolvedApprovals call .approved a) bookingId (g r) := by
  obtain ⟨ha, _⟩ := get?_eq_some_iff.mp hanswers.hrow
  have hthreshold : (g r).chainThreshold = a.chainThreshold := by
    rw [(hg r hr).1.chainThreshold_eq]
    rcases hown with hra | hchain
    · rw [db.approvals.eq_of_key_eq hr ha hra]
    · exact (huniform a ha r hr hchain).symm
  unfold Satisfied
  rw [hthreshold]
  cases hta : a.chainThreshold with
  | any =>
    refine .inl ⟨g a, ?_, ?_, ?_⟩
    · rw [hrows]
      exact List.mem_map_of_mem ha
    · rw [inChainOf_answerOf (hg r hr).1 (hg a ha).1]
      simp only [inChainOf, hon, Bool.true_and, Bool.or_eq_true, beq_iff_eq]
      exact hown.imp Eq.symm sameChain_symm
    · rw [(hg a ha).2, statusAfter, if_pos rfl]
      rfl
  | all =>
    intro s' hs' hchain
    have hmem := hs'
    rw [hrows] at hs'
    obtain ⟨s, hs, rfl⟩ := List.mem_map.mp hs'
    rw [inChainOf_answerOf (hg r hr).1 (hg s hs).1] at hchain
    simp only [inChainOf, Bool.and_eq_true, Bool.or_eq_true, beq_iff_eq] at hchain
    obtain ⟨hson, hrs⟩ := hchain
    have hstatus := (hg s hs).2
    by_cases hsa : s.id = a.id
    · rw [statusAfter, if_pos hsa] at hstatus
      exact .inl hstatus
    · have has : sameChain a s = true := by
        rcases hown, hrs with ⟨hra | har, hid | hrs⟩
        · exact absurd (hid.trans hra) hsa
        · rwa [← db.approvals.eq_of_key_eq hr ha hra]
        · rwa [db.approvals.eq_of_key_eq hs hr hid]
        · exact sameChain_trans (sameChain_symm hrs) har
      have hcount : unresolvedCount (db.resolvedApprovals call .approved a) a.targetEntityId = 0 := by
        simpa only [Resolves, BookingDb.resolvedApprovals, hta] using hresolves
      have hresolved := List.countP_eq_zero.mp hcount (g s) hmem
      have htarget : a.targetEntityId = bookingId := by simpa [onBooking] using hon
      have hgon : onBooking a.targetEntityId (g s) = true := by
        rw [htarget]
        unfold onBooking at hson ⊢
        rwa [(hg s hs).1.targetEntityId_eq]
      rw [hgon, Bool.true_and] at hresolved
      have hexpires : expires .approved a s = false := by
        simp [expires, hta]
      rw [statusAfter_of_other hsa hexpires] at hstatus
      have hnd := hdelegated s hs hson hsa has hta
      rw [← hstatus] at hnd
      cases hcase : (g s).status <;> simp_all

theorem allSatisfied_of_resolves (hanswers : BookingAnswers db call .approved a)
    (hresolves : Resolves db call .approved a) (hon : onBooking bookingId a = true)
    (huniform : UniformThreshold db.approvals)
    (hothers : ∀ r ∈ db.approvals.rows, onBooking bookingId r = true → r.id ≠ a.id →
      r.status ≠ .rejected ∧ (sameChain a r = false → Satisfied db.approvals bookingId r) ∧
      (sameChain a r = true → a.chainThreshold = .all → r.status ≠ .delegated)) :
    AllSatisfied (db.resolvedApprovals call .approved a) bookingId := by
  obtain ⟨g, hrows, hg⟩ := exists_resolvedRows hanswers
  obtain ⟨ha, _⟩ := get?_eq_some_iff.mp hanswers.hrow
  intro r' hr' hon'
  have hrows' := hrows
  rw [hrows] at hr'
  obtain ⟨r, hr, rfl⟩ := List.mem_map.mp hr'
  obtain ⟨hanswer, hstatus⟩ := hg r hr
  have honr : onBooking bookingId r = true := by
    unfold onBooking at hon' ⊢
    rwa [hanswer.targetEntityId_eq] at hon'
  constructor
  · rw [hstatus]
    unfold statusAfter
    by_cases hra : r.id = a.id
    · rw [if_pos hra]
      decide
    · rw [if_neg hra]
      split
      · decide
      · exact (hothers r hr honr hra).1
  · by_cases hown : r.id = a.id ∨ sameChain a r = true
    · exact ownChain_satisfied hanswers hresolves hon huniform
        (fun s hs hson hsa => (hothers s hs hson hsa).2.2) hrows hg hr hown
    · simp only [not_or, Bool.not_eq_true] at hown
      obtain ⟨hra, hother⟩ := hown
      refine Satisfied.of_map hrows (fun s hs => (hg s hs).1) hr ?_
        ((hothers r hr honr hra).2.1 hother)
      intro s hs hchain
      simp only [inChainOf, Bool.and_eq_true, Bool.or_eq_true, beq_iff_eq] at hchain
      have hsa : s.id ≠ a.id ∧ sameChain a s = false := by
        rcases hchain.2 with hid | hrs
        · rw [db.approvals.eq_of_key_eq hs hr hid]
          exact ⟨hra, hother⟩
        · constructor
          · intro hid
            rw [db.approvals.eq_of_key_eq hs ha hid] at hrs
            rw [sameChain_symm hrs] at hother
            cases hother
          · by_contra hsame
            rw [Bool.not_eq_false] at hsame
            rw [sameChain_trans hrs hsame] at hother
            cases hother
      rw [(hg s hs).2, statusAfter_of_other hsa.1 (expires_of_otherChain hsa.2)]

theorem cancels_iff (ruleInTenant : Nat → Bool) (hon : ∀ a, db.approvals.get? call.approvalId = some a →
      onBooking bookingId a = true) (hpending : db.status? bookingId = some .pendingApproval) :
    (grantOne ruleInTenant db call).status? bookingId = some .cancelled ↔
      RejectsRow ruleInTenant db call := by
  constructor
  · intro hcancelled
    rcases status?_grantOne ruleInTenant hon with
      hsame | ⟨_, decision, a, hanswers, _, happrovals, hstatus⟩
    · rw [hsame, hpending] at hcancelled
      cases hcancelled
    · rw [hstatus] at hcancelled
      have hrejected : decision = .rejected := by
        cases decision with
        | approved => cases hcancelled
        | rejected => rfl
      subst hrejected
      obtain ⟨g, hrows, hg⟩ := exists_resolvedRows hanswers
      obtain ⟨ha, hid⟩ := get?_eq_some_iff.mp hanswers.hrow
      refine ⟨a, hanswers.hrow, hanswers.hpending, g a, get?_eq_some_iff.mpr ⟨?_, ?_⟩, ?_⟩
      · rw [happrovals, hrows]
        exact List.mem_map_of_mem ha
      · rw [(hg a ha).1.id_eq, hid]
      · rw [(hg a ha).2, statusAfter, if_pos rfl]
        rfl
  · intro hrejects
    obtain ⟨a, ha, hapending, a', ha', hrejected⟩ := hrejects
    obtain ⟨hmem', hid'⟩ := get?_eq_some_iff.mp ha'
    cases grantOne_step ruleInTenant db call with
    | unchanged hsame =>
      rw [hsame, ha] at ha'
      cases ha'
      rw [hapending] at hrejected
      cases hrejected
    | @answered decision b hanswers hnot hsame =>
      obtain ⟨g, hrows, hg⟩ := exists_respondRows hanswers
      obtain ⟨_, hid⟩ := get?_eq_some_iff.mp hanswers.hrow
      rw [hsame, hrows] at hmem'
      obtain ⟨r, hr, rfl⟩ := List.mem_map.mp hmem'
      rw [(hg r hr).1.id_eq, ← hid] at hid'
      rw [(hg r hr).2, if_pos hid'] at hrejected
      cases decision with
      | approved => cases hrejected
      | rejected => exact absurd trivial hnot
    | @resolved decision b hanswers _ happrovals hbookings =>
      rw [happrovals] at hmem'
      rw [not_pending_of_resolved hanswers hmem' hid'] at hrejected
      have htarget : b.targetEntityId = bookingId := by
        simpa [onBooking] using hon b hanswers.hrow
      cases decision with
      | approved => cases hrejected
      | rejected =>
        have hstatus := status?_transition db bookingId bookingId (resolvedStatus .rejected)
        rw [if_pos ⟨rfl, hpending⟩] at hstatus
        unfold BookingDb.status? at hstatus ⊢
        rw [hbookings, htarget, hstatus]
        rfl

end

/-! ## Every sequence of answers -/

structure AnswersOwnRows (bookingId : Nat) (calls : List BookingGrantCall) (db : BookingDb) :
    Prop where
  uniform : UniformThreshold db.approvals
  announced : Announced db bookingId
  answers : ∀ call ∈ calls, ∀ a, db.approvals.get? call.approvalId = some a →
    onBooking bookingId a = true

theorem AnswersOwnRows.grantOne {calls : List BookingGrantCall}
    (h : AnswersOwnRows bookingId calls db) (ruleInTenant : Nat → Bool) (call : BookingGrantCall) :
    AnswersOwnRows bookingId calls (grantOne ruleInTenant db call) where
  uniform := h.uniform.grantOne ruleInTenant call
  announced := h.announced.grantOne
  answers := fun call' hcall' =>
    onBooking_grantOne ruleInTenant call (h.answers call' hcall')

section

variable {ruleInTenant : Nat → Bool} {db : BookingDb} {bookingId : Nat}
  {calls : List BookingGrantCall}

theorem status?_run (ruleInTenant : Nat → Bool) (hinv : AnswersOwnRows bookingId calls db)
    (hleft : db.status? bookingId ≠ some .pendingApproval) {post : List BookingGrantCall}
    (hpost : ∀ call ∈ post, call ∈ calls) :
    (run (grantOne ruleInTenant) db post).status? bookingId = db.status? bookingId := by
  induction post generalizing db with
  | nil => rfl
  | cons call post ih =>
    have hcall := hinv.answers call (hpost call List.mem_cons_self)
    have hsame := (status?_grantOne ruleInTenant hcall).resolve_right fun h => hleft h.1
    rw [run_cons, ih (hinv.grantOne ruleInTenant call) (by rwa [hsame])
      (fun c hc => hpost c (List.mem_cons_of_mem call hc)), hsame]

theorem cancelled_iff (hinv : AnswersOwnRows bookingId calls db)
    (hpending : db.status? bookingId = some .pendingApproval) {pre : List BookingGrantCall}
    (hpre : ∀ call ∈ pre, call ∈ calls) :
    (run (grantOne ruleInTenant) db pre).status? bookingId = some .cancelled ↔
      ∃ pre' call mid, pre = pre' ++ call :: mid ∧
        (run (grantOne ruleInTenant) db pre').status? bookingId = some .pendingApproval ∧
        RejectsRow ruleInTenant (run (grantOne ruleInTenant) db pre') call := by
  induction pre generalizing db with
  | nil =>
    rw [run_nil, hpending]
    constructor
    · intro h
      cases h
    · intro h
      obtain ⟨pre', call, mid, hsplit, _⟩ := h
      exact absurd hsplit (by simp)
  | cons call pre ih =>
    have hcall := hinv.answers call (hpre call List.mem_cons_self)
    have hpre' : ∀ c ∈ pre, c ∈ calls := fun c hc => hpre c (List.mem_cons_of_mem call hc)
    have hinv' := hinv.grantOne ruleInTenant call
    have hcancels := cancels_iff ruleInTenant hcall hpending
    by_cases hstill : (grantOne ruleInTenant db call).status? bookingId = some .pendingApproval
    · rw [run_cons, ih hinv' hstill hpre']
      constructor
      · intro h
        obtain ⟨pre', call', mid, hsplit, hrest⟩ := h
        exact ⟨call :: pre', call', mid, by rw [hsplit]; rfl, hrest⟩
      · intro h
        obtain ⟨pre', call', mid, hsplit, hrest⟩ := h
        cases pre' with
        | nil =>
          obtain ⟨rfl, rfl⟩ := List.cons.inj hsplit
          rw [hcancels.mpr hrest.2] at hstill
          cases hstill
        | cons first pre' =>
          obtain ⟨rfl, hrestSplit⟩ := List.cons.inj hsplit
          exact ⟨pre', call', mid, hrestSplit, hrest⟩
    · rw [run_cons, status?_run ruleInTenant hinv' hstill hpre', hcancels]
      constructor
      · intro h
        exact ⟨[], call, pre, rfl, hpending, h⟩
      · intro h
        obtain ⟨pre', call', mid, hsplit, hwaits, hrejects⟩ := h
        cases pre' with
        | nil =>
          obtain ⟨rfl, rfl⟩ := List.cons.inj hsplit
          exact hrejects
        | cons first pre' =>
          obtain ⟨rfl, hrestSplit⟩ := List.cons.inj hsplit
          have hmem : ∀ c ∈ pre', c ∈ calls := fun c hc =>
            hpre' c (hrestSplit ▸ List.mem_append_left _ hc)
          rw [run_cons, status?_run ruleInTenant hinv' hstill hmem] at hwaits
          exact absurd hwaits hstill

end

/-- A booking whose answers all resolve only what is complete is resolved once, announced when it
is resolved, and confirmed only when every chain is satisfied. -/
theorem resolvesOnce_of_guarded {ruleInTenant : Nat → Bool} {db : BookingDb} {bookingId : Nat}
    {calls : List BookingGrantCall} (hawaiting : Awaiting db bookingId calls)
    (hok : Guarded (grantOne ruleInTenant) (ResolvesOnlyComplete bookingId) db calls) :
    ResolvesOnce ruleInTenant db bookingId calls := by
  have hinv : ∀ pre, AnswersOwnRows bookingId calls (run (grantOne ruleInTenant) db pre) :=
    fun pre => run_invariant (I := AnswersOwnRows bookingId calls)
      (fun _ call h => h.grantOne ruleInTenant call)
      ⟨hawaiting.uniform, hawaiting.announced, hawaiting.answers⟩ pre
  constructor
  · intro pre call mid call' post hsplit hleaves hagain
    have hmid : ∀ c ∈ mid, c ∈ calls := fun c hc => by rw [hsplit]; simp [hc]
    have hstays := status?_run ruleInTenant
      ((hinv pre).grantOne ruleInTenant call) hleaves.2 hmid
    have hpending := hagain.1
    rw [run_append, run_cons, hstays] at hpending
    exact hleaves.2 hpending
  · intro pre call post hsplit
    have hcall : call ∈ calls := by rw [hsplit]; simp
    exact emits_iff (hinv pre).announced ((hinv pre).answers call hcall)
      (guarded_iff.mp hok pre call post hsplit)
  · intro pre call post hsplit hleaves hconfirmed
    have hon := (hinv pre).answers call (by rw [hsplit]; simp)
    have hnow := guarded_iff.mp hok pre call post hsplit
    rw [run_append] at hconfirmed ⊢
    simp only [run_cons, run_nil] at hconfirmed ⊢
    rcases status?_grantOne ruleInTenant hon with
      hsame | ⟨hpending, decision, a, hanswers, hresolves, happrovals, hstatus⟩
    · exact absurd (hsame.trans hleaves.1) hleaves.2
    · rw [hstatus] at hconfirmed
      cases resolvedStatus_eq_confirmed hconfirmed
      rw [happrovals]
      exact allSatisfied_of_resolves hanswers hresolves (hon a hanswers.hrow) (hinv pre).uniform
        ((hnow .approved a hanswers hresolves).2 rfl hpending)
  · intro pre post hsplit
    exact cancelled_iff (hinv []) hawaiting.pending fun c hc => by rw [hsplit]; simp [hc]

/-! ## A room chain and a service chain -/

/-- A booking whose room waits for one of two people, and whose catering waits for a third. -/
def roomAndService : BookingDb where
  bookings := ⟨[{ id := 1, status := .pendingApproval, locationId := 3, startAt := 0, endAt := 60 }],
    by decide⟩
  slots := ⟨[{ id := 2, bookingId := 1, spaceId := 3, startAt := 0, endAt := 60,
               status := .pendingApproval }], by decide⟩
  approvals := ⟨[
    { id := 10, targetEntityType := .booking, targetEntityId := 1, approvalChainId := some 7,
      approverPersonId := some 20, chainThreshold := .any },
    { id := 11, targetEntityType := .booking, targetEntityId := 1, approvalChainId := some 7,
      approverPersonId := some 21, chainThreshold := .any },
    { id := 12, targetEntityType := .booking, targetEntityId := 1, approvalChainId := some 8,
      approverPersonId := some 22, scopeBreakdown := { orderLineItemIds := [30] } }], by decide⟩

def bookingAnswer (approvalId : Nat) (decision : String) : BookingGrantCall where
  approvalId := approvalId
  actorUserId := none
  decision := decision
  comments := none
  idempotencyKey := "k"
  now := 100

/-- One approval of the room confirms the booking while its catering is not approved. -/
theorem anyChainFirst_confirms :
    ¬ ∀ ruleInTenant db bookingId calls, Awaiting db bookingId calls →
      ResolvesOnce ruleInTenant db bookingId calls := by
  intro hlaw
  have hawaiting : Awaiting roomAndService 1 [bookingAnswer 10 "approved"] :=
    ⟨by decide, by unfold UniformThreshold; decide, by decide, fun _ he => absurd he List.not_mem_nil⟩
  have hlaws := hlaw (fun _ => true) roomAndService 1 [bookingAnswer 10 "approved"] hawaiting
  have hcomplete := hlaws.confirmedOnlyComplete [] (bookingAnswer 10 "approved") [] rfl
    ⟨by decide, by decide⟩ (by decide)
  revert hcomplete
  unfold AllSatisfied
  decide

def serviceThenRoom : List BookingGrantCall :=
  [bookingAnswer 12 "approved", bookingAnswer 10 "approved"]

/-- Answered in this order, the booking is resolved when both chains are satisfied. -/
theorem resolvesOnce_serviceThenRoom :
    ResolvesOnce (fun _ => true) roomAndService 1 serviceThenRoom := by
  refine resolvesOnce_of_guarded
    ⟨by decide, by unfold UniformThreshold; decide, by decide, fun _ he => absurd he List.not_mem_nil⟩
    ⟨?_, ?_, trivial⟩
  · -- The room still waits, so the first answer does not resolve.
    intro decision a hanswers hresolves
    cases hanswers.hrow
    cases hanswers.hparse
    revert hresolves
    unfold Resolves
    decide
  · intro decision a hanswers hresolves
    cases hanswers.hrow
    cases hanswers.hparse
    decide

end Prequest.Booking
