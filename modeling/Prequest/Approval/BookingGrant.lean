import Prequest.Booking.Db

/-!
# Granting a booking approval

`grant_booking_approval` answers one approval row of a booking. It holds the
row lock of the booking from before its first write to its commit, so calls for
one booking run one after another and the function is modelled as one step.

The answer resolves the booking when it rejects, when it is the first approval
of a chain with threshold `any`, or when its chain has threshold `all` and no
row of the booking is pending or rejected any more. Resolving moves the slots
and the booking out of `pending_approval`, releases or drops the setup work
orders that waited, and emits `approval.granted` for a workflow approval.

* `BookingGrantStep`, `grantBookingApproval_cases`: what one call can do.
-/

namespace Prequest.Booking

open Prequest.Lib Prequest.Outbox Prequest.Approval

/-- The arguments of a call, with the time of its transaction. -/
structure BookingGrantCall where
  approvalId : Nat
  actorUserId : Option Nat
  decision : String
  comments : Option String
  idempotencyKey : String
  now : Nat
  deriving DecidableEq, Repr

/-- The exceptions of the function. -/
inductive BookingGrantError where
  | invalidDecision
  | idempotencyKeyRequired
  | approvalNotFound (id : Nat)
  | ruleNotInTenant (id : Nat)
  | emit (e : EmitError)
  deriving DecidableEq, Repr

/-- What the setup trigger reports. -/
structure SetupEmitSummary where
  emittedCount : Nat
  skippedCancelled : Nat
  skippedNoArgs : Nat
  deriving DecidableEq, Repr

/-- The result of a call, by its `kind`. -/
inductive BookingGrantResult where
  | nonBookingApproved (approvalId : Nat) (targetEntityType : TargetEntityType)
  | alreadyResponded (approvalId : Nat) (priorStatus : ApprovalStatus)
  | alreadyResolved (approvalId bookingId : Nat) (chainId : Option Nat) (approvedSiblings : Nat)
  | partialApproved (approvalId remaining : Nat)
  | resolved (approvalId bookingId : Nat) (finalDecision : Decision) (newStatus : BookingStatus)
      (slotsTransitioned : Nat) (bookingTransitioned : Bool) (setupEmit : SetupEmitSummary)
      (workflowEmit : Bool)
  deriving DecidableEq, Repr

/-- `p_decision in ('approved', 'rejected')`. -/
def parseDecision (decision : String) : Option Decision :=
  if decision = "approved" then some .approved
  else if decision = "rejected" then some .rejected
  else none

/-! ## Approval rows -/

def sameChain (a r : ApprovalRow) : Bool :=
  a.approvalChainId.isSome && r.approvalChainId == a.approvalChainId

def onBooking (bookingId : Nat) (r : ApprovalRow) : Bool :=
  r.targetEntityId == bookingId

/-- The approved rows of the chain of `a`, other than `a`; zero without a chain. -/
def approvedSiblingsInChain (approvals : Table ApprovalRow) (a : ApprovalRow) : Nat :=
  approvals.rows.countP fun r => sameChain a r && r.id != a.id && r.status == .approved

def unresolvedCount (approvals : Table ApprovalRow) (bookingId : Nat) : Nat :=
  approvals.rows.countP fun r =>
    onBooking bookingId r && (r.status == .pending || r.status == .rejected)

/-- The compare-and-set on the answered row. It cannot miss: the row was read as pending
under the lock that is still held. -/
def BookingDb.respond (db : BookingDb) (call : BookingGrantCall) (decision : Decision) : BookingDb :=
  { db with
    approvals := db.approvals.update (fun r => r.id == call.approvalId && r.status == .pending)
      ⟨fun r => { r with
          status := decision.toStatus
          respondedAt := some call.now
          comments := call.comments },
        fun _ => rfl⟩ }

/-- A row that nobody needs to answer any more. -/
def expire (now : Nat) (comments : String) : Table.Assignment ApprovalRow :=
  ⟨fun r => { r with status := .expired, respondedAt := some now, comments := some comments },
    fun _ => rfl⟩

def BookingDb.expirePending (db : BookingDb) (call : BookingGrantCall) (bookingId : Nat) : BookingDb :=
  { db with
    approvals := db.approvals.update (fun r => onBooking bookingId r && r.status == .pending)
      (expire call.now "Sibling approval rejected; bundle no longer needs approval.") }

/-- After the first approval of an `any` chain, its other pending rows expire. -/
def BookingDb.expireChain (db : BookingDb) (call : BookingGrantCall) (a : ApprovalRow) : BookingDb :=
  { db with
    approvals := db.approvals.update
      (fun r => sameChain a r && r.id != call.approvalId && r.status == .pending)
      (expire call.now "Sibling approved (any-of-N); chain resolved.") }

/-! ## Booking and slots -/

def waitingSlot (bookingId : Nat) (s : SlotRow) : Bool :=
  s.bookingId == bookingId && s.status == .pendingApproval

def waitingBooking (bookingId : Nat) (b : BookingRow) : Bool :=
  b.id == bookingId && b.status == .pendingApproval

/-- The booking and its slots leave `pending_approval` for `newStatus`. -/
def BookingDb.transition (db : BookingDb) (bookingId : Nat) (newStatus : BookingStatus) :
    BookingDb :=
  { db with
    slots := db.slots.update (waitingSlot bookingId)
      ⟨fun s => { s with
          status := newStatus
          cancellationGraceUntil :=
            if newStatus = .cancelled then none else s.cancellationGraceUntil },
        fun _ => rfl⟩
    bookings := db.bookings.update (waitingBooking bookingId)
      ⟨fun b => { b with status := newStatus }, fun _ => rfl⟩ }

/-! ## Setup work orders -/

def BookingDb.hasLine (db : BookingDb) (bookingId : Nat) (line : OrderLineItem) : Bool :=
  db.orders.rows.any fun o => o.id == line.orderId && o.bookingId == some bookingId

def setupEvent (bookingId : Nat) (line : OrderLineItem) (args : Jsonb SetupTriggerArgs) :
    Event BookingEventKey BookingEvent where
  idempotencyKey := .setupWorkOrderCreateRequired line.id
  payload := .setupWorkOrderCreateRequired bookingId line.id
    { args.setupArgs with originSurface := some (args.setupArgs.originSurface.getD "bundle") } false

def BookingDb.clearSetupArgs (db : BookingDb) (p : OrderLineItem → Bool) : BookingDb :=
  { db with
    orderLineItems := db.orderLineItems.update p
      ⟨fun l => { l with pendingSetupTriggerArgs := none }, fun _ => rfl⟩ }

/-- One line of `approve_booking_setup_trigger`: emit its event and clear its arguments. The
arguments are compared with SQL `NULL`, so JSON `null` counts as arguments. -/
def emitSetupOf (ruleInTenant : Nat → Bool) (bookingId : Nat)
    (acc : BookingDb × SetupEmitSummary) (line : OrderLineItem) :
    Except BookingGrantError (BookingDb × SetupEmitSummary) :=
  let (db, summary) := acc
  if line.fulfillmentStatus = .cancelled then
    .ok (db, { summary with skippedCancelled := summary.skippedCancelled + 1 })
  else match line.pendingSetupTriggerArgs with
    | none => .ok (db, { summary with skippedNoArgs := summary.skippedNoArgs + 1 })
    | some args =>
        match (args.setupArgs.ruleIds.getD []).find? fun id => !ruleInTenant id with
        | some id => .error (.ruleNotInTenant id)
        | none =>
            match emit db.outbox (setupEvent bookingId line args) with
            | .error e => .error (.emit e)
            | .ok outbox =>
                .ok (({ db with outbox := outbox } : BookingDb).clearSetupArgs
                    (fun l => l.id == line.id),
                  { summary with emittedCount := summary.emittedCount + 1 })

/-- `approve_booking_setup_trigger`: emit the setup work orders of the booking's lines. -/
def approveBookingSetupTrigger (ruleInTenant : Nat → Bool) (db : BookingDb) (bookingId : Nat) :
    Except BookingGrantError (BookingDb × SetupEmitSummary) :=
  (db.orderLineItems.rows.filter (db.hasLine bookingId)).foldlM
    (emitSetupOf ruleInTenant bookingId) (db, ⟨0, 0, 0⟩)

/-! ## The function -/

def grantedEvent (call : BookingGrantCall) (decision : Decision) (a : ApprovalRow)
    (workflowInstanceId : Nat) : Event BookingEventKey BookingEvent where
  idempotencyKey := .approvalGranted call.approvalId
  payload := .approvalGranted call.approvalId a.targetEntityId decision workflowInstanceId
    a.workflowNodeId

/-- The record of the decision in `domain_events`. -/
def BookingDb.recordDecision (db : BookingDb) (decision : Decision) (bookingId : Nat) : BookingDb :=
  { db with
    domainEvents := db.domainEvents ++
      [{ eventType := match decision with
          | .approved => "approval_approved"
          | .rejected => "approval_rejected"
         entityType := "approval"
         entityId := bookingId }] }

/-- Steps 8 to 11: move the booking, handle its setup work orders, record and emit. -/
def resolveBooking (ruleInTenant : Nat → Bool) (db : BookingDb) (call : BookingGrantCall)
    (decision : Decision) (a : ApprovalRow) (newStatus : BookingStatus) :
    Except BookingGrantError (BookingDb × BookingGrantResult) :=
  let bookingId := a.targetEntityId
  let slotsTransitioned := db.slots.rows.countP (waitingSlot bookingId)
  let bookingTransitioned := db.bookings.rows.any (waitingBooking bookingId)
  let db := db.transition bookingId newStatus
  let setup : Except BookingGrantError (BookingDb × SetupEmitSummary) :=
    if newStatus = .confirmed then approveBookingSetupTrigger ruleInTenant db bookingId
    else .ok (db.clearSetupArgs (db.hasLine bookingId), ⟨0, 0, 0⟩)
  match setup with
  | .error e => .error e
  | .ok (db, summary) =>
      let db := db.recordDecision decision bookingId
      let result := .resolved call.approvalId bookingId decision newStatus slotsTransitioned
        bookingTransitioned summary a.workflowInstanceId.isSome
      match a.workflowInstanceId with
      | none => .ok (db, result)
      | some workflowInstanceId =>
          match emit db.outbox (grantedEvent call decision a workflowInstanceId) with
          | .error e => .error (.emit e)
          | .ok outbox => .ok ({ db with outbox := outbox }, result)

/-- Steps 5 to 7, on the pending row `a`: answer it and see what the answer decides. -/
def answerBooking (ruleInTenant : Nat → Bool) (db : BookingDb) (call : BookingGrantCall)
    (decision : Decision) (a : ApprovalRow) :
    Except BookingGrantError (BookingDb × BookingGrantResult) :=
  -- The siblings are counted before the answer is written.
  let approvedSiblings := approvedSiblingsInChain db.approvals a
  let db := db.respond call decision
  if a.chainThreshold = .any ∧ decision = .approved ∧ 0 < approvedSiblings then
    .ok (db, .alreadyResolved call.approvalId a.targetEntityId a.approvalChainId approvedSiblings)
  else match decision, a.chainThreshold with
    | .rejected, _ =>
        resolveBooking ruleInTenant (db.expirePending call a.targetEntityId) call .rejected a .cancelled
    | .approved, .any =>
        resolveBooking ruleInTenant (db.expireChain call a) call .approved a .confirmed
    | .approved, .all =>
        let unresolved := unresolvedCount db.approvals a.targetEntityId
        if 0 < unresolved then .ok (db, .partialApproved call.approvalId unresolved)
        else resolveBooking ruleInTenant db call .approved a .confirmed

/-- `grant_booking_approval`. -/
def grantBookingApproval (ruleInTenant : Nat → Bool) (db : BookingDb) (call : BookingGrantCall) :
    Except BookingGrantError (BookingDb × BookingGrantResult) :=
  match parseDecision call.decision with
  | none => .error .invalidDecision
  | some decision =>
      if call.idempotencyKey = "" then .error .idempotencyKeyRequired
      else match db.approvals.get? call.approvalId with
        | none => .error (.approvalNotFound call.approvalId)
        | some a =>
            if a.targetEntityType ≠ .booking then
              .ok (db, .nonBookingApproved call.approvalId a.targetEntityType)
            else if a.status ≠ .pending then
              .ok (db, .alreadyResponded call.approvalId a.status)
            else answerBooking ruleInTenant db call decision a

/-! ## What a call can do -/

/-- The call answers the pending row `a` of a booking. -/
structure BookingAnswers (db : BookingDb) (call : BookingGrantCall) (decision : Decision)
    (a : ApprovalRow) : Prop where
  hparse : parseDecision call.decision = some decision
  hrow : db.approvals.get? call.approvalId = some a
  htarget : a.targetEntityType = .booking
  hpending : a.status = .pending

def Resolves (db : BookingDb) (call : BookingGrantCall) (decision : Decision) (a : ApprovalRow) :
    Prop :=
  match decision, a.chainThreshold with
  | .rejected, _ => True
  | .approved, .any => approvedSiblingsInChain db.approvals a = 0
  | .approved, .all => unresolvedCount (db.respond call .approved).approvals a.targetEntityId = 0

def BookingDb.resolvedApprovals (db : BookingDb) (call : BookingGrantCall) (decision : Decision)
    (a : ApprovalRow) : Table ApprovalRow :=
  match decision, a.chainThreshold with
  | .rejected, _ => ((db.respond call .rejected).expirePending call a.targetEntityId).approvals
  | .approved, .any => ((db.respond call .approved).expireChain call a).approvals
  | .approved, .all => (db.respond call .approved).approvals

def resolvedStatus : Decision → BookingStatus
  | .approved => .confirmed
  | .rejected => .cancelled

def IsSetupEvent (e : Event BookingEventKey BookingEvent) : Prop :=
  ∃ bookingId oliId args requiresApproval,
    e.payload = .setupWorkOrderCreateRequired bookingId oliId args requiresApproval

/-- The ways a call ends without raising, by what they do to the rows. -/
inductive BookingGrantStep (db : BookingDb) (call : BookingGrantCall) : BookingDb → Prop where
  /-- The row is of another kind of entity, or was answered before. -/
  | unchanged {db' : BookingDb} (hsame : db' = db) : BookingGrantStep db call db'
  /-- The answer is written, and others are still asked or have answered for the chain. -/
  | answered {db' : BookingDb} {decision : Decision} {a : ApprovalRow}
      (hanswers : BookingAnswers db call decision a) (hnot : ¬ Resolves db call decision a)
      (hsame : db' = db.respond call decision) : BookingGrantStep db call db'
  /-- The answer is written and resolves the booking. -/
  | resolved {db' : BookingDb} {decision : Decision} {a : ApprovalRow}
      (hanswers : BookingAnswers db call decision a) (hresolves : Resolves db call decision a)
      (happrovals : db'.approvals = db.resolvedApprovals call decision a)
      (hbookings : db'.bookings =
        (db.transition a.targetEntityId (resolvedStatus decision)).bookings)
      (hslots : db'.slots = (db.transition a.targetEntityId (resolvedStatus decision)).slots)
      (hkept : ∀ e ∈ db.outbox.rows, e ∈ db'.outbox.rows)
      (hgranted : ∀ w, a.workflowInstanceId = some w →
        grantedEvent call decision a w ∈ db'.outbox.rows)
      (hnew : ∀ e ∈ db'.outbox.rows, e ∈ db.outbox.rows ∨
        IsSetupEvent e ∨
        ∃ w, a.workflowInstanceId = some w ∧ e = grantedEvent call decision a w) :
      BookingGrantStep db call db'

/-- The setup work orders of some lines change the order lines and the outbox only. -/
structure OnlySetup (db db' : BookingDb) : Prop where
  approvals : db'.approvals = db.approvals
  bookings : db'.bookings = db.bookings
  slots : db'.slots = db.slots
  kept : ∀ e ∈ db.outbox.rows, e ∈ db'.outbox.rows
  new : ∀ e ∈ db'.outbox.rows, e ∈ db.outbox.rows ∨ IsSetupEvent e

theorem OnlySetup.refl (db : BookingDb) : OnlySetup db db :=
  ⟨rfl, rfl, rfl, fun _ h => h, fun _ h => .inl h⟩

theorem OnlySetup.trans {a b c : BookingDb} (h : OnlySetup a b) (h' : OnlySetup b c) :
    OnlySetup a c := by
  refine ⟨h'.approvals.trans h.approvals, h'.bookings.trans h.bookings, h'.slots.trans h.slots,
    fun e he => h'.kept e (h.kept e he), fun e he => ?_⟩
  rcases h'.new e he with hb | hsetup
  · exact h.new e hb
  · exact .inr hsetup

variable {ruleInTenant : Nat → Bool} {acc acc' : BookingDb × SetupEmitSummary}

theorem emitSetupOf_onlySetup {bookingId : Nat} {line : OrderLineItem}
    (h : emitSetupOf ruleInTenant bookingId acc line = .ok acc') : OnlySetup acc.1 acc'.1 := by
  obtain ⟨db, summary⟩ := acc
  simp only [emitSetupOf] at h
  split at h
  · cases h
    exact .refl db
  · cases hargs : line.pendingSetupTriggerArgs with
    | none =>
      simp only [hargs] at h
      cases h
      exact .refl db
    | some args =>
      simp only [hargs] at h
      split at h
      · cases h
      · split at h
        · cases h
        · rename_i outbox hemit
          cases h
          refine ⟨rfl, rfl, rfl, fun e he => (mem_of_emit hemit e).mpr (.inl he), fun e he => ?_⟩
          rcases (mem_of_emit hemit e).mp he with hold | rfl
          · exact .inl hold
          · exact .inr ⟨_, _, _, _, rfl⟩

theorem foldlM_emitSetupOf_onlySetup {bookingId : Nat} {lines : List OrderLineItem}
    (h : lines.foldlM (emitSetupOf ruleInTenant bookingId) acc = .ok acc') :
    OnlySetup acc.1 acc'.1 := by
  induction lines generalizing acc with
  | nil =>
    cases h
    exact .refl _
  | cons line lines ih =>
    rw [List.foldlM_cons] at h
    cases hline : emitSetupOf ruleInTenant bookingId acc line with
    | error e =>
      rw [hline] at h
      cases h
    | ok mid =>
      rw [hline] at h
      exact (emitSetupOf_onlySetup hline).trans (ih h)

variable {db db' : BookingDb} {call : BookingGrantCall} {result : BookingGrantResult}

theorem resolveBooking_cases {base : BookingDb} {decision : Decision} {a : ApprovalRow}
    (h : resolveBooking ruleInTenant base call decision a (resolvedStatus decision) =
      .ok (db', result)) (hbookings : base.bookings = db.bookings) (hslots : base.slots = db.slots)
    (houtbox : base.outbox = db.outbox)
    (happrovals : base.approvals = db.resolvedApprovals call decision a)
    (hanswers : BookingAnswers db call decision a) (hresolves : Resolves db call decision a) :
    BookingGrantStep db call db' := by
  simp only [resolveBooking] at h
  split at h
  · cases h
  rename_i mid summary hsetup
  have hmid : OnlySetup (base.transition a.targetEntityId (resolvedStatus decision)) mid := by
    split at hsetup
    · exact foldlM_emitSetupOf_onlySetup hsetup
    · cases hsetup
      exact ⟨rfl, rfl, rfl, fun _ h => h, fun _ h => .inl h⟩
  have hb : mid.bookings = (db.transition a.targetEntityId (resolvedStatus decision)).bookings := by
    rw [hmid.bookings]
    simp only [BookingDb.transition, hbookings]
  have hs : mid.slots = (db.transition a.targetEntityId (resolvedStatus decision)).slots := by
    rw [hmid.slots]
    simp only [BookingDb.transition, hslots]
  have hkept : ∀ e ∈ db.outbox.rows, e ∈ mid.outbox.rows := fun e he =>
    hmid.kept e (by rw [← houtbox] at he; exact he)
  have hnew : ∀ e ∈ mid.outbox.rows, e ∈ db.outbox.rows ∨ IsSetupEvent e := fun e he => by
    rw [← houtbox]
    exact hmid.new e he
  cases hworkflow : a.workflowInstanceId with
  | none =>
    simp only [hworkflow] at h
    cases h
    refine .resolved hanswers hresolves (hmid.approvals.trans happrovals) hb hs hkept ?_ ?_
    · intro w hw
      rw [hworkflow] at hw
      cases hw
    · intro e he
      exact (hnew e he).imp_right .inl
  | some w =>
    simp only [hworkflow] at h
    split at h
    · cases h
    · rename_i outbox hemit
      cases h
      refine .resolved hanswers hresolves (hmid.approvals.trans happrovals) hb hs ?_ ?_ ?_
      · intro e he
        exact (mem_of_emit hemit e).mpr (.inl (hkept e he))
      · intro w' hw'
        rw [hworkflow] at hw'
        cases hw'
        exact (mem_of_emit hemit _).mpr (.inr rfl)
      · intro e he
        rcases (mem_of_emit hemit e).mp he with hold | rfl
        · exact (hnew e hold).imp_right .inl
        · exact .inr (.inr ⟨w, hworkflow, rfl⟩)

/-- The answer does not decide the booking. -/
def BookingGrantResult.LeavesOpen (result : BookingGrantResult) : Prop :=
  ∀ a b d s n t u w, result ≠ .resolved a b d s n t u w

theorem answerBooking_spec {decision : Decision} {a : ApprovalRow}
    (h : answerBooking ruleInTenant db call decision a = .ok (db', result)) :
    ¬Resolves db call decision a ∧ db' = db.respond call decision ∧ result.LeavesOpen ∨
      Resolves db call decision a ∧
        resolveBooking ruleInTenant { db with approvals := db.resolvedApprovals call decision a } call
          decision a (resolvedStatus decision) = .ok (db', result) := by
  simp only [answerBooking] at h
  by_cases hshort : a.chainThreshold = .any ∧ decision = .approved ∧
      0 < approvedSiblingsInChain db.approvals a
  · rw [if_pos hshort] at h
    cases h
    refine .inl ⟨?_, rfl, nofun⟩
    obtain ⟨hany, rfl, hsiblings⟩ := hshort
    simp only [Resolves, hany]
    omega
  · rw [if_neg hshort] at h
    cases decision with
    | rejected => exact .inr ⟨trivial, h⟩
    | approved =>
      cases hthreshold : a.chainThreshold with
      | any =>
        simp only [hthreshold, true_and] at h hshort
        refine .inr ⟨?_, ?_⟩
        · simp only [Resolves, hthreshold]
          omega
        · simp only [BookingDb.resolvedApprovals, hthreshold]
          exact h
      | all =>
        simp only [hthreshold] at h
        by_cases hwait : 0 < unresolvedCount (db.respond call .approved).approvals a.targetEntityId
        · rw [if_pos hwait] at h
          cases h
          refine .inl ⟨?_, rfl, nofun⟩
          simp only [Resolves, hthreshold]
          omega
        · rw [if_neg hwait] at h
          refine .inr ⟨?_, ?_⟩
          · simp only [Resolves, hthreshold]
            omega
          · simp only [BookingDb.resolvedApprovals, hthreshold]
            exact h

theorem grantBookingApproval_spec
    (h : grantBookingApproval ruleInTenant db call = .ok (db', result)) :
    db' = db ∧ result.LeavesOpen ∨ ∃ decision a, BookingAnswers db call decision a ∧
      (¬Resolves db call decision a ∧ db' = db.respond call decision ∧ result.LeavesOpen ∨
        Resolves db call decision a ∧
          resolveBooking ruleInTenant { db with approvals := db.resolvedApprovals call decision a }
            call decision a (resolvedStatus decision) = .ok (db', result)) := by
  unfold grantBookingApproval at h
  cases hparse : parseDecision call.decision with
  | none => simp only [hparse, reduceCtorEq] at h
  | some decision =>
    simp only [hparse] at h
    split at h
    · cases h
    cases hrow : db.approvals.get? call.approvalId with
    | none => simp only [hrow, reduceCtorEq] at h
    | some a =>
      simp only [hrow] at h
      split at h
      · cases h
        refine .inl ⟨rfl, ?_⟩
        intro _ _ _ _ _ _ _ _ hresolved
        cases hresolved
      · rename_i htarget
        split at h
        · cases h
          refine .inl ⟨rfl, ?_⟩
          intro _ _ _ _ _ _ _ _ hresolved
          cases hresolved
        · rename_i hpending
          simp only [ne_eq, not_not] at htarget hpending
          exact .inr ⟨decision, a, ⟨hparse, hrow, htarget, hpending⟩, answerBooking_spec h⟩

theorem grantBookingApproval_cases
    (h : grantBookingApproval ruleInTenant db call = .ok (db', result)) :
    BookingGrantStep db call db' := by
  rcases grantBookingApproval_spec h with ⟨hsame, _⟩ |
    ⟨decision, a, hanswers, ⟨hnot, hsame, _⟩ | ⟨hresolves, hresolved⟩⟩
  · exact .unchanged hsame
  · exact .answered hanswers hnot hsame
  · exact resolveBooking_cases hresolved rfl rfl rfl rfl hanswers hresolves

end Prequest.Booking
