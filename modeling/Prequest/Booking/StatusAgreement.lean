import Prequest.Approval.BookingGrantRun
import Prequest.Booking.Cancel

/-!
# The status of a booking and of its slots

A booking is edited, its approvals are answered and it is cancelled by three
functions, each with its own idea of which rows to move. Over a sequence of such
calls, the slots of a booking should carry its status, the booking should wait
exactly when somebody is asked, and a booking that was rejected or cancelled
should hold no room. An edit that moves the booking into or out of
`pending_approval` leaves its slots behind.

* `statusesAgree_of_guarded`: the laws for every sequence of such calls.
* `editThenReject_holdsRoom`: an edit into approval, then a rejection.
-/

namespace Prequest.Booking

open Prequest.Lib Prequest.Approval

inductive BookingCommand where
  | edit (call : EditCall)
  | grant (call : BookingGrantCall)
  | cancel (call : CancelCall)

/-- One command, as a transaction that commits or is rolled back. -/
def commandOne (ruleInTenant : Nat → Bool) (store : BookingStore) : BookingCommand → BookingStore
  | .edit call =>
      match editBooking store call with
      | .ok (store', _) => store'
      | .error _ => store
  | .grant call => { store with db := grantOne ruleInTenant store.db call }
  | .cancel call =>
      match cancelBookingWithCascade store call with
      | .ok (store', _) => store'
      | .error _ => store

/-! ## The laws -/

section

variable (ruleInTenant : Nat → Bool) (store : BookingStore) (bookingId : Nat)

def RejectsBooking (call : BookingGrantCall) : Prop :=
  ∃ a, store.db.approvals.get? call.approvalId = some a ∧ aboutBooking bookingId a = true ∧
    a.status = .pending ∧
    ∃ a', (grantOne ruleInTenant store.db call).approvals.get? call.approvalId = some a' ∧
      a'.status = .rejected

/-- The call cancels the booking; a repeated call, which is answered from the record, does not. -/
def CancelsBooking (call : CancelCall) : Prop :=
  store.operations.get? call.idempotencyKey = none ∧
    ∃ store' result, cancelBookingWithCascade store call = .ok (store', result) ∧
      bookingId ∈ result.bookingIds

def EndsBooking : BookingCommand → Prop
  | .edit _ => False
  | .grant call => RejectsBooking ruleInTenant store bookingId call
  | .cancel call => CancelsBooking store bookingId call

end

/-- A slot that is neither finished nor checked in carries the status of its booking, which is
confirmed or waits for approval. -/
def SlotsAgree (db : BookingDb) (bookingId : Nat) : Prop :=
  ∀ s ∈ db.slots.rows, s.bookingId = bookingId → s.status.terminal = false →
    s.status ≠ .checkedIn → db.status? bookingId = some s.status ∧
      (s.status = .confirmed ∨ s.status = .pendingApproval)

def HoldsNoRoom (db : BookingDb) (bookingId : Nat) : Prop :=
  ∀ s ∈ db.slots.rows, s.bookingId = bookingId → s.status.blocksRoom = false

def IsAsked (approvals : Table ApprovalRow) (bookingId : Nat) : Prop :=
  ∃ r ∈ approvals.rows, aboutBooking bookingId r = true ∧ r.status = .pending

/-- The three laws for a sequence of commands. -/
structure StatusesAgree (ruleInTenant : Nat → Bool) (store : BookingStore) (bookingId : Nat)
    (commands : List BookingCommand) : Prop where
  slotsAgree : ∀ pre post, commands = pre ++ post →
    SlotsAgree (run (commandOne ruleInTenant) store pre).db bookingId
  endedHoldsNoRoom : ∀ pre command post, commands = pre ++ command :: post →
    EndsBooking ruleInTenant (run (commandOne ruleInTenant) store pre) bookingId command →
    HoldsNoRoom (run (commandOne ruleInTenant) store (pre ++ [command])).db bookingId
  pendingIff : ∀ pre post, commands = pre ++ post →
    ((run (commandOne ruleInTenant) store pre).db.status? bookingId = some .pendingApproval ↔
      IsAsked (run (commandOne ruleInTenant) store pre).db.approvals bookingId)

/-- Each edit applies a plan that the planner made from the rows it found. -/
def PlansAssembled (ruleInTenant : Nat → Bool) (store : BookingStore)
    (commands : List BookingCommand) : Prop :=
  ∀ pre call post, commands = pre ++ .edit call :: post →
    ∃ reads slotId patch resolutionAt,
      assembleEditPlan reads (run (commandOne ruleInTenant) store pre).db call.bookingId slotId patch
        resolutionAt = .ok call.plan

/-! ## The invariant -/

/-- A slot fits the status `st` of its booking: it is finished, it is checked in while the booking
neither waits nor is cancelled, or it carries the status itself. -/
def SlotFits (st : BookingStatus) (s : SlotRow) : Prop :=
  s.status.terminal = true ∨
    (s.status = .checkedIn ∧ st ≠ .pendingApproval ∧ st ≠ .cancelled) ∨
    (s.status = st ∧ (st = .confirmed ∨ st = .pendingApproval))

structure InAgreement (db : BookingDb) (bookingId : Nat) (st : BookingStatus) : Prop where
  status : db.status? bookingId = some st
  slots : ∀ s ∈ db.slots.rows, s.bookingId = bookingId → SlotFits st s
  pendingIff : st = .pendingApproval ↔ IsAsked db.approvals bookingId

/-! ## The condition -/

def AllFinished (db : BookingDb) (bookingId : Nat) : Prop :=
  ∀ s ∈ db.slots.rows, s.bookingId = bookingId → s.status.terminal = true

/-- An edit asks for a new approval only of a booking that waits already, and needs no approval any
more only for a booking that does not wait; a booking with finished slots only is not bound. -/
def EditKeeps (db : BookingDb) (bookingId : Nat) (call : EditCall) : Prop :=
  call.bookingId = bookingId → AllFinished db bookingId ∨
    let state := approvalState db.approvals bookingId
    (call.plan.approval.adds state → db.status? bookingId = some .pendingApproval) ∧
      (call.plan.approval.drops state → db.status? bookingId = some .confirmed)

def OtherAsked (approvals : Table ApprovalRow) (bookingId : Nat) (a r : ApprovalRow) : Prop :=
  r ∈ approvals.rows ∧ aboutBooking bookingId r = true ∧ r.status = .pending ∧ r.id ≠ a.id

/-- An approving answer to a row of an `any` chain finds no other chain of the booking waiting, and
none of its own chain has approved before, unless somebody else is still asked; one to a row of an
`all` chain finds somebody else asked, or nobody has rejected. A chain is not shared by bookings. -/
def GrantKeeps (db : BookingDb) (bookingId : Nat) (call : BookingGrantCall) : Prop :=
  ∀ a, BookingAnswers db call .approved a →
    if a.targetEntityId = bookingId then
      match a.chainThreshold with
      | .any =>
          if 0 < approvedSiblingsInChain db.approvals a then
            ∃ r, OtherAsked db.approvals bookingId a r
          else ∀ r, OtherAsked db.approvals bookingId a r → sameChain a r = true
      | .all => (∃ r, OtherAsked db.approvals bookingId a r) ∨
          ∀ r ∈ db.approvals.rows, onBooking bookingId r = true → r.id ≠ a.id →
            r.status ≠ .pending ∧ r.status ≠ .rejected
    else ∀ r ∈ db.approvals.rows, aboutBooking bookingId r = true → r.status = .pending →
      sameChain a r = false

/-- The condition on one command and the rows before it. -/
def KeepsAgreement (bookingId : Nat) (store : BookingStore) : BookingCommand → Prop
  | .edit call => EditKeeps store.db bookingId call
  | .grant call => GrantKeeps store.db bookingId call
  | .cancel _ => True

section

variable {db : BookingDb} {bookingId : Nat} {st : BookingStatus}

theorem InAgreement.slotsAgree (h : InAgreement db bookingId st) : SlotsAgree db bookingId := by
  intro s hs hbooking hopen hchecked
  rcases h.slots s hs hbooking with hterminal | ⟨hin, _⟩ | ⟨hcarries, hlive⟩
  · rw [hopen] at hterminal
    cases hterminal
  · exact absurd hin hchecked
  · rw [hcarries]
    exact ⟨h.status, hlive⟩

theorem InAgreement.pending_iff (h : InAgreement db bookingId st) :
    db.status? bookingId = some .pendingApproval ↔ IsAsked db.approvals bookingId := by
  rw [h.status, Option.some.injEq, h.pendingIff]

theorem blocksRoom_of_terminal {status : BookingStatus} (h : status.terminal = true) :
    status.blocksRoom = false := by
  cases status <;> simp_all [BookingStatus.terminal, BookingStatus.blocksRoom]

theorem InAgreement.holdsNoRoom (h : InAgreement db bookingId .cancelled) :
    HoldsNoRoom db bookingId := by
  intro s hs hbooking
  rcases h.slots s hs hbooking with hterminal | ⟨_, _, hne⟩ | ⟨_, hlive⟩
  · exact blocksRoom_of_terminal hterminal
  · exact absurd rfl hne
  · rcases hlive with hlive | hlive <;> cases hlive

theorem isAsked_map {approvals approvals' : Table ApprovalRow} {g : ApprovalRow → ApprovalRow}
    (hrows : approvals'.rows = approvals.rows.map g) (hg : ∀ r ∈ approvals.rows, (g r).AnswerOf r) :
    IsAsked approvals' bookingId ↔
      ∃ r ∈ approvals.rows, aboutBooking bookingId r = true ∧ (g r).status = .pending := by
  have habout : ∀ r ∈ approvals.rows, aboutBooking bookingId (g r) = aboutBooking bookingId r := by
    intro r hr
    simp only [aboutBooking, (hg r hr).targetEntityType_eq, (hg r hr).targetEntityId_eq]
  constructor
  · intro hasked
    obtain ⟨r', hr', hon, hpending⟩ := hasked
    rw [hrows] at hr'
    obtain ⟨r, hr, rfl⟩ := List.mem_map.mp hr'
    exact ⟨r, hr, (habout r hr).symm.trans hon, hpending⟩
  · intro hasked
    obtain ⟨r, hr, hon, hpending⟩ := hasked
    refine ⟨g r, ?_, (habout r hr).trans hon, hpending⟩
    rw [hrows]
    exact List.mem_map_of_mem hr

theorem AllFinished.fits (h : AllFinished db bookingId) (st : BookingStatus) :
    ∀ s ∈ db.slots.rows, s.bookingId = bookingId → SlotFits st s := fun s hs hbooking =>
  .inl (h s hs hbooking)

end

/-! ## Edits -/

section

variable {db db' : BookingDb} {bookingId : Nat} {st : BookingStatus} {call : EditCall}
  {b : BookingRow} {action : EditAction}

theorem SlotFits.of_eq {s s' : SlotRow} (h : SlotFits st s) (hs : s'.status = s.status) :
    SlotFits st s' := by
  unfold SlotFits
  rw [hs]
  exact h

theorem KeepsSlotStatus.fits (h : KeepsSlotStatus db.slots db'.slots)
    (hfits : ∀ s ∈ db.slots.rows, s.bookingId = bookingId → SlotFits st s) :
    ∀ s ∈ db'.slots.rows, s.bookingId = bookingId → SlotFits st s := by
  obtain ⟨g, hrows, hg⟩ := h
  intro s' hs' hbooking
  rw [hrows] at hs'
  obtain ⟨s, hs, rfl⟩ := List.mem_map.mp hs'
  rw [(hg s).1] at hbooking
  exact (hfits s hs hbooking).of_eq (hg s).2

theorem EditDone.id_eq (h : EditDone db call b action db') : b.id = call.bookingId :=
  (Table.get?_eq_some.mp h.hbooking).2

theorem EditDone.status_eq (h : EditDone db call b action db') :
    db.status? call.bookingId = some b.status := by
  simp only [BookingDb.status?, h.hbooking, Option.map_some]

theorem EditDone.status? (h : EditDone db call b action db') (bookingId : Nat) :
    db'.status? bookingId =
      if bookingId = call.bookingId then some (action.statusTarget.getD b.status)
      else db.status? bookingId := by
  simp only [BookingDb.status?, h.hbookings, Table.get?_update]
  by_cases hb : bookingId = call.bookingId
  · have hrow : (b.id == b.id) = true := beq_self_eq_true _
    rw [if_pos hb, hb, h.hbooking]
    simp only [Option.map_some, Table.updated, hrow, if_true, editedBooking]
  · rw [if_neg hb]
    rcases Option.eq_none_or_eq_some (db.bookings.get? bookingId) with hget | ⟨row, hget⟩
    · simp only [hget, Option.map_none]
    · have hid : row.id = bookingId := (Table.get?_eq_some.mp hget).2
      have hrow : (row.id == b.id) = false := by
        rw [hid, h.id_eq]
        simp [hb]
      simp only [hget, Option.map_some, Table.updated, hrow, Bool.false_eq_true, if_false]

/-- Somebody is asked after an edit when the edit inserts a chain, or when somebody was asked before
and the edit expires nothing. -/
theorem EditDone.isAsked_iff (h : EditDone db call b action db') :
    IsAsked db'.approvals call.bookingId ↔
      action.inserts = true ∨ action.expires = false ∧ IsAsked db.approvals call.bookingId := by
  obtain ⟨new, hrows, hnew, hinserts⟩ := approvalsAfterEdit_rows h.happrovals
  constructor
  · intro hasked
    obtain ⟨r', hr', habout, hpending⟩ := hasked
    rw [hrows] at hr'
    rcases List.mem_append.mp hr' with hold | hin
    · obtain ⟨r, hr, rfl⟩ := List.mem_map.mp hold
      right
      cases hexpires : action.expires with
      | false =>
        simp only [rowAfterEdit, hexpires, Bool.false_eq_true, if_false] at habout hpending
        exact ⟨rfl, r, hr, habout, hpending⟩
      | true =>
        exfalso
        simp only [rowAfterEdit, hexpires, if_true] at habout hpending
        by_cases hhit : expiredByEdit (approvalState db.approvals call.bookingId)
            call.bookingId r = true
        · rw [Table.updated_of_true hhit] at hpending
          cases hpending
        · rw [Table.updated_of_false (by simpa using hhit)] at habout hpending
          apply hhit
          simp [expiredByEdit, habout, ApprovalRow.nonTerminal, hpending]
    · exact .inl (hinserts.mp (List.ne_nil_of_mem hin))
  · intro hcases
    rcases hcases with hins | ⟨hexpires, r, hr, habout, hpending⟩
    · obtain ⟨r, hr⟩ := List.exists_mem_of_ne_nil _ (hinserts.mpr hins)
      refine ⟨r, ?_, (hnew r hr).about, (hnew r hr).pending⟩
      rw [hrows]
      exact List.mem_append.mpr (.inr hr)
    · refine ⟨r, ?_, habout, hpending⟩
      rw [hrows]
      refine List.mem_append.mpr (.inl (List.mem_map.mpr ⟨r, hr, ?_⟩))
      simp only [rowAfterEdit, hexpires, Bool.false_eq_true, if_false]

theorem EditDone.isAsked_other (h : EditDone db call b action db') (hb : bookingId ≠ call.bookingId) :
    IsAsked db'.approvals bookingId ↔ IsAsked db.approvals bookingId := by
  obtain ⟨new, hrows, hnew, _⟩ := approvalsAfterEdit_rows h.happrovals
  have hkept : ∀ r, aboutBooking bookingId r = true → rowAfterEdit call db.approvals action r = r := by
    intro r habout
    unfold rowAfterEdit
    split
    · apply Table.updated_of_false
      simp only [aboutBooking, Bool.and_eq_true, beq_iff_eq] at habout
      have hother : r.targetEntityId ≠ call.bookingId := fun heq => hb (habout.2.symm.trans heq)
      simp [expiredByEdit, aboutBooking, hother]
    · rfl
  -- A row of before is about the same booking afterwards.
  have habout : ∀ r, aboutBooking bookingId (rowAfterEdit call db.approvals action r) =
      aboutBooking bookingId r := by
    intro r
    unfold rowAfterEdit Table.updated
    split_ifs <;> rfl
  constructor
  · intro hasked
    obtain ⟨r', hr', hon, hpending⟩ := hasked
    rw [hrows] at hr'
    rcases List.mem_append.mp hr' with hold | hin
    · obtain ⟨r, hr, rfl⟩ := List.mem_map.mp hold
      rw [habout] at hon
      rw [hkept r hon] at hpending
      exact ⟨r, hr, hon, hpending⟩
    · have hboth := (hnew r' hin).about
      simp only [aboutBooking, Bool.and_eq_true, beq_iff_eq] at hon hboth
      exact absurd (hon.2.symm.trans hboth.2) hb
  · intro hasked
    obtain ⟨r, hr, hon, hpending⟩ := hasked
    refine ⟨r, ?_, hon, hpending⟩
    rw [hrows]
    exact List.mem_append.mpr (.inl (List.mem_map.mpr ⟨r, hr, hkept r hon⟩))

end

section

variable {db db' : BookingDb} {bookingId : Nat} {st : BookingStatus} {call : EditCall}
  {b : BookingRow} {action : EditAction}

theorem InAgreement.edit_other (h : InAgreement db bookingId st)
    (hdone : EditDone db call b action db') (hb : bookingId ≠ call.bookingId) :
    InAgreement db' bookingId st where
  status := by rw [hdone.status?, if_neg hb, h.status]
  slots := hdone.hslots.fits h.slots
  pendingIff := by rw [h.pendingIff, hdone.isAsked_other hb]

theorem InAgreement.edit_own (h : InAgreement db call.bookingId st)
    (hdone : EditDone db call b action db') (hkeeps : EditKeeps db call.bookingId call) :
    InAgreement db' call.bookingId (action.statusTarget.getD st) := by
  have hst : b.status = st := Option.some.inj (hdone.status_eq.symm.trans h.status)
  have hstatus : db'.status? call.bookingId = some (action.statusTarget.getD st) := by
    rw [hdone.status?, if_pos rfl, hst]
  obtain ⟨hinserts, hexpires, hnone, hpending, hconfirmed⟩ := decideApproval_ok hdone.hdecided
  -- The slots fit the new status when it is the old one, and when they are all finished.
  have hslots : (AllFinished db call.bookingId ∨ action.statusTarget.getD st = st) →
      ∀ s ∈ db'.slots.rows, s.bookingId = call.bookingId →
        SlotFits (action.statusTarget.getD st) s := by
    intro hcases
    rcases hcases with hfinished | hsame
    · exact hdone.hslots.fits (hfinished.fits _)
    · rw [hsame]
      exact hdone.hslots.fits h.slots
  by_cases hadds : call.plan.approval.adds (approvalState db.approvals call.bookingId)
  · have htarget := hpending.mpr hadds
    refine ⟨hstatus, hslots ?_, ?_⟩
    · refine (hkeeps rfl).imp_right fun hright => ?_
      have hwaits := hright.1 hadds
      rw [h.status, Option.some.injEq] at hwaits
      rw [htarget, hwaits]
      rfl
    · rw [hdone.isAsked_iff, htarget]
      exact iff_of_true rfl (.inl (hinserts.mpr hadds))
  · have hnoInsert : action.inserts ≠ true := fun hins => hadds (hinserts.mp hins)
    by_cases hdrops : call.plan.approval.drops (approvalState db.approvals call.bookingId)
    · have htarget := hconfirmed.mpr hdrops
      refine ⟨hstatus, hslots ?_, ?_⟩
      · refine (hkeeps rfl).imp_right fun hright => ?_
        have hconf := hright.2 hdrops
        rw [h.status, Option.some.injEq] at hconf
        rw [htarget, hconf]
        rfl
      · rw [hdone.isAsked_iff, htarget]
        refine iff_of_false (by simp) ?_
        intro hasked
        rcases hasked with hins | ⟨hkept, _⟩
        · exact hnoInsert hins
        · rw [hexpires.mpr (.inr hdrops)] at hkept
          cases hkept
    · have htarget := hnone.mpr ⟨hadds, hdrops⟩
      refine ⟨hstatus, hslots (.inr (by rw [htarget]; rfl)), ?_⟩
      -- A plan that replaces the chain also adds one, so nothing expires here.
      have hkept : action.expires = false := by
        rw [Bool.eq_false_iff]
        intro hexp
        rcases hexpires.mp hexp with hreplaces | hdrop
        · exact hadds ⟨hreplaces.1, .inr ⟨hreplaces.2.1, .inr hreplaces.2.2.2⟩⟩
        · exact hdrops hdrop
      rw [hdone.isAsked_iff, htarget, Option.getD_none, h.pendingIff]
      constructor
      · intro hasked
        exact .inr ⟨hkept, hasked⟩
      · intro hcases
        exact (hcases.resolve_left hnoInsert).2

end

variable {store : BookingStore} {bookingId : Nat} {st : BookingStatus} {call : BookingGrantCall}

theorem editBooking_agrees
    {call : EditCall} {ruleInTenant : Nat → Bool} (h : InAgreement store.db bookingId st)
    (hkeeps : EditKeeps store.db bookingId call) :
    ∃ st', InAgreement (commandOne ruleInTenant store (.edit call)).db bookingId st' := by
  simp only [commandOne]
  cases hedit : editBooking store call with
  | error e => exact ⟨st, h⟩
  | ok out =>
    obtain ⟨store', result⟩ := out
    cases editBooking_cases hedit with
    | cached hsame =>
      rw [hsame]
      exact ⟨st, h⟩
    | done hdone =>
      by_cases hb : bookingId = call.bookingId
      · subst hb
        exact ⟨_, h.edit_own hdone hkeeps⟩
      · exact ⟨st, h.edit_other hdone hb⟩

/-! ## Cancellations -/

section

variable {db db' : BookingDb} {bookingId : Nat} {st : BookingStatus} {ids : List Nat}

theorem InAgreement.cancel_own (h : InAgreement db bookingId st)
    (hcancels : CancelsBookings ids db db') (hmem : bookingId ∈ ids) :
    InAgreement db' bookingId .cancelled := by
  obtain ⟨f, hf, hfs⟩ := hcancels.slots
  obtain ⟨g, hg, hgs⟩ := hcancels.approvals
  refine ⟨?_, ?_, iff_of_false (by decide) ?_⟩
  · rw [hcancels.bookings, if_pos hmem, h.status, Option.map_some]
  · intro s' hs' hbooking
    rw [hf] at hs'
    obtain ⟨s, _, rfl⟩ := List.mem_map.mp hs'
    obtain ⟨hsame, hstatus⟩ := hfs s
    rw [hsame] at hbooking
    refine .inl ?_
    rw [hstatus]
    split
    · rfl
    · rename_i hclosed
      simpa [hbooking, hmem] using hclosed
  · rw [isAsked_map hg fun r _ => (hgs r).1]
    intro hasked
    obtain ⟨r, _, habout, hpending⟩ := hasked
    simp only [aboutBooking, Bool.and_eq_true, beq_iff_eq] at habout
    rw [(hgs r).2] at hpending
    split at hpending
    · cases hpending
    · rename_i hnot
      exact hnot ⟨habout.1, habout.2 ▸ hmem, hpending⟩

theorem InAgreement.cancel_other (h : InAgreement db bookingId st)
    (hcancels : CancelsBookings ids db db') (hmem : bookingId ∉ ids) :
    InAgreement db' bookingId st := by
  obtain ⟨f, hf, hfs⟩ := hcancels.slots
  obtain ⟨g, hg, hgs⟩ := hcancels.approvals
  refine ⟨?_, ?_, ?_⟩
  · rw [hcancels.bookings, if_neg hmem, h.status]
  · intro s' hs' hbooking
    rw [hf] at hs'
    obtain ⟨s, hs, rfl⟩ := List.mem_map.mp hs'
    obtain ⟨hsame, hstatus⟩ := hfs s
    rw [hsame] at hbooking
    rw [if_neg (by simp [hbooking, hmem])] at hstatus
    exact (h.slots s hs hbooking).of_eq hstatus
  · rw [h.pendingIff, isAsked_map hg fun r _ => (hgs r).1]
    refine exists_congr fun r => and_congr_right fun _ => and_congr_right fun habout => ?_
    simp only [aboutBooking, Bool.and_eq_true, beq_iff_eq] at habout
    rw [(hgs r).2, if_neg (by simp [habout.2, hmem])]

end

theorem cancelBooking_agrees
    {call : CancelCall} {ruleInTenant : Nat → Bool} (h : InAgreement store.db bookingId st) :
    ∃ st', InAgreement (commandOne ruleInTenant store (.cancel call)).db bookingId st' ∧
      (CancelsBooking store bookingId call → st' = .cancelled) := by
  simp only [commandOne, CancelsBooking]
  cases hcancel : cancelBookingWithCascade store call with
  | error e =>
    refine ⟨st, h, ?_⟩
    intro hcancels
    obtain ⟨_, store', result, hok, _⟩ := hcancels
    cases hok
  | ok out =>
    obtain ⟨store', result⟩ := out
    cases cancelBooking_cases hcancel with
    | cached hused hsame =>
      rw [hsame]
      exact ⟨st, h, fun hcancels => absurd hcancels.1 hused⟩
    | already hcancelled hids hdb =>
      refine ⟨st, hdb ▸ h, ?_⟩
      intro hcancels
      obtain ⟨_, store', result', hok, hmem⟩ := hcancels
      cases hok
      rw [hids, List.mem_singleton] at hmem
      rw [← hmem, h.status] at hcancelled
      exact Option.some.inj hcancelled
    | done hcancels =>
      by_cases hmem : bookingId ∈ result.bookingIds
      · exact ⟨.cancelled, h.cancel_own hcancels hmem, fun _ => rfl⟩
      · refine ⟨st, h.cancel_other hcancels hmem, ?_⟩
        intro hends
        obtain ⟨_, store', result', hok, hin⟩ := hends
        cases hok
        exact absurd hin hmem

/-! ## Answers -/

section

variable {db db' : BookingDb} {bookingId : Nat} {st : BookingStatus} {call : BookingGrantCall}
  {decision : Decision} {a : ApprovalRow}

theorem onBooking_of_about {r : ApprovalRow} (h : aboutBooking bookingId r = true) :
    onBooking bookingId r = true := by
  simp only [aboutBooking, Bool.and_eq_true] at h
  exact h.2

theorem BookingAnswers.about (h : BookingAnswers db call decision a) :
    aboutBooking a.targetEntityId a = true := by
  simp [aboutBooking, h.htarget]

theorem InAgreement.waits_of_answers (h : InAgreement db a.targetEntityId st)
    (hanswers : BookingAnswers db call decision a) : st = .pendingApproval :=
  h.pendingIff.mpr
    ⟨a, (get?_eq_some_iff.mp hanswers.hrow).1, hanswers.about, hanswers.hpending⟩

theorem not_isAsked_of_resolves (hanswers : BookingAnswers db call decision a)
    (hresolves : Resolves db call decision a) (hkeeps : GrantKeeps db a.targetEntityId call) :
    ¬ IsAsked (db.resolvedApprovals call decision a) a.targetEntityId := by
  obtain ⟨g, hrows, hg⟩ := exists_resolvedRows hanswers
  rw [isAsked_map hrows fun r hr => (hg r hr).1]
  intro hasked
  obtain ⟨r, hr, habout, hpending⟩ := hasked
  rw [(hg r hr).2] at hpending
  by_cases hra : r.id = a.id
  · rw [statusAfter, if_pos hra] at hpending
    exact Decision.toStatus_ne_pending decision hpending
  rw [statusAfter, if_neg hra] at hpending
  split at hpending
  · cases hpending
  rename_i hkept
  have hother : OtherAsked db.approvals a.targetEntityId a r := ⟨hr, habout, hpending, hra⟩
  cases decision with
  | rejected =>
    apply hkept
    simp [expires, hpending, onBooking_of_about habout]
  | approved =>
    have hcondition := hkeeps a hanswers
    rw [if_pos rfl] at hcondition
    cases hthreshold : a.chainThreshold with
    | any =>
      simp only [hthreshold] at hcondition
      simp only [Resolves, hthreshold] at hresolves
      rw [if_neg (by omega)] at hcondition
      apply hkept
      simp [expires, hpending, hthreshold, hcondition r hother]
    | all =>
      simp only [Resolves, hthreshold] at hresolves
      obtain ⟨g', hrows', hg'⟩ := exists_respondRows hanswers
      rw [unresolvedCount, hrows', List.countP_eq_zero] at hresolves
      apply hresolves (g' r) (List.mem_map_of_mem hr)
      have hon := onBooking_of_about habout
      simp only [onBooking, (hg' r hr).1.targetEntityId_eq] at hon ⊢
      simp [hon, (hg' r hr).2, hra, hpending]

theorem isAsked_of_not_resolves (hanswers : BookingAnswers db call decision a)
    (hnot : ¬ Resolves db call decision a) (hkeeps : GrantKeeps db a.targetEntityId call) :
    IsAsked (db.respond call decision).approvals a.targetEntityId := by
  obtain ⟨g, hrows, hg⟩ := exists_respondRows hanswers
  rw [isAsked_map hrows fun r hr => (hg r hr).1]
  -- Another row that waits is not written.
  have hkept : (∃ r, OtherAsked db.approvals a.targetEntityId a r) →
      ∃ r ∈ db.approvals.rows, aboutBooking a.targetEntityId r = true ∧ (g r).status = .pending := by
    intro hother
    obtain ⟨r, hr, habout, hpending, hra⟩ := hother
    exact ⟨r, hr, habout, by rw [(hg r hr).2, if_neg hra, hpending]⟩
  cases decision with
  | rejected => exact absurd trivial hnot
  | approved =>
    have hcondition := hkeeps a hanswers
    rw [if_pos rfl] at hcondition
    cases hthreshold : a.chainThreshold with
    | any =>
      simp only [Resolves, hthreshold] at hnot
      simp only [hthreshold] at hcondition
      rw [if_pos (by omega)] at hcondition
      exact hkept hcondition
    | all =>
      simp only [hthreshold] at hcondition
      rcases hcondition with hother | hnone
      · exact hkept hother
      · exfalso
        apply hnot
        simp only [Resolves, hthreshold]
        rw [unresolvedCount, hrows, List.countP_eq_zero]
        intro r' hr'
        obtain ⟨r, hr, rfl⟩ := List.mem_map.mp hr'
        by_cases hra : r.id = a.id
        · simp [(hg r hr).2, hra, Decision.toStatus]
        · intro htrue
          simp only [onBooking, (hg r hr).1.targetEntityId_eq, (hg r hr).2, if_neg hra,
            Bool.and_eq_true, Bool.or_eq_true, beq_iff_eq] at htrue
          obtain ⟨hon, hstatus⟩ := htrue
          have hneither := hnone r hr (by simp [onBooking, hon]) hra
          rcases hstatus with hpending | hrejected
          · exact hneither.1 hpending
          · exact hneither.2 hrejected

end

section

variable {db db' : BookingDb} {bookingId : Nat} {st : BookingStatus} {call : BookingGrantCall}
  {decision : Decision} {a : ApprovalRow}

theorem transition_fits
    (hfits : ∀ s ∈ db.slots.rows, s.bookingId = bookingId → SlotFits .pendingApproval s) :
    ∀ s ∈ (db.transition bookingId (resolvedStatus decision)).slots.rows, s.bookingId = bookingId →
      SlotFits (resolvedStatus decision) s := by
  intro s' hs' hbooking
  obtain ⟨s, hs, rfl⟩ := Table.mem_update.mp hs'
  by_cases hwaits : waitingSlot bookingId s = true
  · rw [Table.updated_of_true hwaits]
    cases decision with
    | approved => exact .inr (.inr ⟨rfl, .inl rfl⟩)
    | rejected => exact .inl rfl
  · rw [Table.updated_of_false (by simpa using hwaits)] at hbooking ⊢
    rcases hfits s hs hbooking with hterminal | ⟨_, hne, _⟩ | ⟨hcarries, _⟩
    · exact .inl hterminal
    · exact absurd rfl hne
    · exact absurd (by simp [waitingSlot, hbooking, hcarries]) hwaits

theorem transition_fits_other {other : Nat} {newStatus : BookingStatus} (hb : bookingId ≠ other)
    (hfits : ∀ s ∈ db.slots.rows, s.bookingId = bookingId → SlotFits st s) :
    ∀ s ∈ (db.transition other newStatus).slots.rows, s.bookingId = bookingId → SlotFits st s := by
  intro s' hs' hbooking
  obtain ⟨s, hs, rfl⟩ := Table.mem_update.mp hs'
  by_cases hwaits : waitingSlot other s = true
  · rw [Table.updated_of_true hwaits] at hbooking
    simp only [waitingSlot, Bool.and_eq_true, beq_iff_eq] at hwaits
    exact absurd (hbooking.symm.trans hwaits.1) hb
  · rw [Table.updated_of_false (by simpa using hwaits)] at hbooking ⊢
    exact hfits s hs hbooking

theorem isAsked_other (hanswers : BookingAnswers db call decision a)
    (hb : bookingId ≠ a.targetEntityId) (hkeeps : GrantKeeps db bookingId call) :
    (IsAsked (db.respond call decision).approvals bookingId ↔ IsAsked db.approvals bookingId) ∧
      (IsAsked (db.resolvedApprovals call decision a) bookingId ↔
        IsAsked db.approvals bookingId) := by
  have hne : ∀ r, aboutBooking bookingId r = true → r.id ≠ a.id ∨ r ∉ db.approvals.rows := by
    intro r habout
    by_cases hr : r ∈ db.approvals.rows
    · left
      intro hra
      have hsame := db.approvals.eq_of_key_eq hr (get?_eq_some_iff.mp hanswers.hrow).1 hra
      simp only [aboutBooking, Bool.and_eq_true, beq_iff_eq, hsame] at habout
      exact hb habout.2.symm
    · exact .inr hr
  constructor
  · obtain ⟨g, hrows, hg⟩ := exists_respondRows hanswers
    rw [isAsked_map hrows fun r hr => (hg r hr).1]
    refine exists_congr fun r => and_congr_right fun hr => and_congr_right fun habout => ?_
    rw [(hg r hr).2, if_neg ((hne r habout).resolve_right (not_not_intro hr))]
  · obtain ⟨g, hrows, hg⟩ := exists_resolvedRows hanswers
    rw [isAsked_map hrows fun r hr => (hg r hr).1]
    refine exists_congr fun r => and_congr_right fun hr => and_congr_right fun habout => ?_
    rw [(hg r hr).2, statusAfter, if_neg ((hne r habout).resolve_right (not_not_intro hr))]
    by_cases hpending : r.status = .pending
    · have hexpires : expires decision a r = false := by
        have hon : onBooking a.targetEntityId r = false := by
          simp only [aboutBooking, Bool.and_eq_true, beq_iff_eq] at habout
          simp [onBooking, habout.2, hb]
        cases decision with
        | rejected => simp [expires, hon]
        | approved =>
          have hcondition := hkeeps a hanswers
          rw [if_neg (Ne.symm hb)] at hcondition
          have hchain := hcondition r hr habout hpending
          unfold expires
          cases a.chainThreshold <;> simp [hchain]
      rw [hexpires]
      rfl
    · have hexpires : expires decision a r = false := by simp [expires, hpending]
      rw [hexpires]
      rfl

theorem InAgreement.grant_own (h : InAgreement db a.targetEntityId .pendingApproval)
    (hresolves : Resolves db call decision a) (hanswers : BookingAnswers db call decision a)
    (happrovals : db'.approvals = db.resolvedApprovals call decision a)
    (hbookings : db'.bookings =
      (db.transition a.targetEntityId (resolvedStatus decision)).bookings)
    (hslots : db'.slots = (db.transition a.targetEntityId (resolvedStatus decision)).slots)
    (hkeeps : GrantKeeps db a.targetEntityId call) :
    InAgreement db' a.targetEntityId (resolvedStatus decision) where
  status := by
    have htransition := status?_transition db a.targetEntityId a.targetEntityId
      (resolvedStatus decision)
    rw [if_pos ⟨rfl, h.status⟩] at htransition
    simpa only [BookingDb.status?, hbookings] using htransition
  slots := by
    rw [hslots]
    exact transition_fits h.slots
  pendingIff := by
    rw [happrovals]
    refine iff_of_false ?_ (not_isAsked_of_resolves hanswers hresolves hkeeps)
    cases decision <;> decide

end

theorem status_of_answered {db db' : BookingDb} {decision : Decision} {a a' : ApprovalRow}
    {g : ApprovalRow → ApprovalRow} (hanswers : BookingAnswers db call decision a)
    (hrows : db'.approvals.rows = db.approvals.rows.map g)
    (hg : (g a).AnswerOf a ∧ (g a).status = decision.toStatus)
    (ha' : db'.approvals.get? call.approvalId = some a') : a'.status = decision.toStatus := by
  obtain ⟨ha, hid⟩ := get?_eq_some_iff.mp hanswers.hrow
  obtain ⟨hmem, hid'⟩ := get?_eq_some_iff.mp ha'
  have hga : g a ∈ db'.approvals.rows := by
    rw [hrows]
    exact List.mem_map_of_mem ha
  have hsame : a' = g a := db'.approvals.eq_of_key_eq hmem hga (by
    show a'.id = (g a).id
    rw [hid', hg.1.id_eq, hid])
  rw [hsame, hg.2]

theorem toStatus_eq_rejected {decision : Decision} (h : ApprovalStatus.rejected = decision.toStatus) :
    decision = .rejected := by
  cases decision with
  | approved => cases h
  | rejected => rfl

theorem grantOne_agrees {ruleInTenant : Nat → Bool} (h : InAgreement store.db bookingId st)
    (hkeeps : GrantKeeps store.db bookingId call) :
    ∃ st', InAgreement (grantOne ruleInTenant store.db call) bookingId st' ∧
      (RejectsBooking ruleInTenant store bookingId call → st' = .cancelled) := by
  cases grantOne_step ruleInTenant store.db call with
  | unchanged hsame =>
    refine ⟨st, by rw [hsame]; exact h, ?_⟩
    intro hrejects
    obtain ⟨a, ha, _, hpending, a', ha', hrejected⟩ := hrejects
    rw [hsame, ha] at ha'
    cases ha'
    rw [hpending] at hrejected
    cases hrejected
  | @answered decision a hanswers hnot hsame =>
    have hagrees : InAgreement (grantOne ruleInTenant store.db call) bookingId st := by
      rw [hsame]
      refine ⟨h.status, h.slots, ?_⟩
      by_cases hb : bookingId = a.targetEntityId
      · subst hb
        exact iff_of_true (h.waits_of_answers hanswers)
          (isAsked_of_not_resolves hanswers hnot hkeeps)
      · rw [h.pendingIff, (isAsked_other hanswers hb hkeeps).1]
    refine ⟨st, hagrees, ?_⟩
    intro hrejects
    obtain ⟨_, _, _, _, a', ha', hrejected⟩ := hrejects
    obtain ⟨g, hrows, hg⟩ := exists_respondRows hanswers
    have hrow := hg a (get?_eq_some_iff.mp hanswers.hrow).1
    rw [if_pos rfl] at hrow
    rw [hsame] at ha'
    rw [status_of_answered hanswers hrows hrow ha'] at hrejected
    rw [toStatus_eq_rejected hrejected.symm] at hnot
    exact absurd trivial hnot
  | @resolved decision a hanswers hresolves happrovals hbookings hslots =>
    by_cases hb : bookingId = a.targetEntityId
    · subst hb
      rw [h.waits_of_answers hanswers] at h
      refine ⟨resolvedStatus decision,
        h.grant_own hresolves hanswers happrovals hbookings hslots hkeeps, ?_⟩
      intro hrejects
      obtain ⟨_, _, _, _, a', ha', hrejected⟩ := hrejects
      obtain ⟨g, hrows, hg⟩ := exists_resolvedRows hanswers
      have hrow := hg a (get?_eq_some_iff.mp hanswers.hrow).1
      rw [statusAfter, if_pos rfl] at hrow
      rw [status_of_answered hanswers (by rw [happrovals, hrows]) hrow ha'] at hrejected
      rw [toStatus_eq_rejected hrejected.symm]
      rfl
    · refine ⟨st, ⟨?_, ?_, ?_⟩, ?_⟩
      · have htransition := status?_transition store.db a.targetEntityId bookingId
          (resolvedStatus decision)
        rw [if_neg (fun hboth => hb hboth.1), h.status] at htransition
        simpa only [BookingDb.status?, hbookings] using htransition
      · rw [hslots]
        exact transition_fits_other hb h.slots
      · rw [h.pendingIff, happrovals, (isAsked_other hanswers hb hkeeps).2]
      · intro hrejects
        obtain ⟨a₂, ha₂, habout, _⟩ := hrejects
        rw [hanswers.hrow] at ha₂
        cases ha₂
        simp only [aboutBooking, Bool.and_eq_true, beq_iff_eq] at habout
        exact absurd habout.2.symm hb

/-! ## Runs -/

section

variable {ruleInTenant : Nat → Bool} {bookingId : Nat}

theorem commandOne_agrees {store : BookingStore} {command : BookingCommand} {st : BookingStatus}
    (h : InAgreement store.db bookingId st) (hkeeps : KeepsAgreement bookingId store command) :
    ∃ st', InAgreement (commandOne ruleInTenant store command).db bookingId st' ∧
      (EndsBooking ruleInTenant store bookingId command → st' = .cancelled) := by
  cases command with
  | edit call =>
    obtain ⟨st', hagrees⟩ := @editBooking_agrees store bookingId st call ruleInTenant h hkeeps
    exact ⟨st', hagrees, False.elim⟩
  | grant call => exact grantOne_agrees h hkeeps
  | cancel call => exact cancelBooking_agrees h

/-- The laws for every sequence of commands that meet the condition. -/
theorem statusesAgree_of_guarded {store : BookingStore} {commands : List BookingCommand}
    (hstart : ∃ st, InAgreement store.db bookingId st)
    (hkeeps : Guarded (commandOne ruleInTenant) (KeepsAgreement bookingId) store commands) :
    StatusesAgree ruleInTenant store bookingId commands := by
  have hagrees : ∀ pre post, commands = pre ++ post →
      ∃ st, InAgreement (run (commandOne ruleInTenant) store pre).db bookingId st := by
    intro pre post hcommands
    rw [hcommands] at hkeeps
    refine hkeeps.take.invariant (I := fun store => ∃ st, InAgreement store.db bookingId st)
      ?_ hstart
    intro store command hinv hok
    obtain ⟨st, hinv⟩ := hinv
    obtain ⟨st', hnext, _⟩ := commandOne_agrees hinv hok
    exact ⟨st', hnext⟩
  refine ⟨?_, ?_, ?_⟩
  · intro pre post hcommands
    obtain ⟨st, hinv⟩ := hagrees pre post hcommands
    exact hinv.slotsAgree
  · intro pre command post hcommands hends
    obtain ⟨st, hinv⟩ := hagrees pre (command :: post) hcommands
    obtain ⟨st', hnext, hcancelled⟩ :=
      @commandOne_agrees ruleInTenant bookingId _ _ st hinv
        (guarded_iff.mp hkeeps pre command post hcommands)
    rw [run_append]
    exact (hcancelled hends ▸ hnext).holdsNoRoom
  · intro pre post hcommands
    obtain ⟨st, hinv⟩ := hagrees pre post hcommands
    exact hinv.pending_iff

end

/-! ## An edit into approval -/

def confirmedBooking : BookingDb where
  bookings := ⟨[
    { id := 1, status := .confirmed, locationId := 100, startAt := 0, endAt := 3600000 }], by decide⟩
  slots := ⟨[
    { id := 1, bookingId := 1, spaceId := 100, startAt := 0, endAt := 3600000,
      status := .confirmed }], by decide⟩
  approvals := Table.empty

def askingReads : EditPlanReads where
  loadSpace := fun _ => some {}
  resolve := fun _ _ _ _ =>
    { final := .requireApproval, approvalConfig := some ⟨[⟨.person, 7⟩], some .all⟩ }
  snapshotBuffers := fun _ _ _ => (0, 0)
  computeCost := fun _ _ _ => none
  policySnapshot := fun _ => ""
  linkedRows := fun _ => {}

def moveRoomPlan : EditPlan where
  booking :=
    { locationId := 101, startAt := 0, endAt := 3600000, costAmountSnapshot := none,
      policySnapshot := some "", appliedRuleIds := some [] }
  slotPatches :=
    [{ slotId := 1, spaceId := 101, startAt := 0, endAt := 3600000, setupBufferMinutes := some 0,
       teardownBufferMinutes := some 0, attendeeCount := some none, attendeePersonIds := some [] }]
  resolutionAt := 0
  approval :=
    { oldOutcome := .allow
      newOutcome := .requireApproval
      chainConfigChanged := true
      newChainConfig := some ⟨[⟨.person, 7⟩], .all⟩ }

/-- Everybody and everything is in the tenant, and no rule changed. -/
def openEnv : CommandEnv where
  userOf := some
  entityInTenant := fun _ _ => true
  rules := []

/-- The edit, with approval 10 of chain 5. -/
def moveRoom : EditCall where
  bookingId := 1
  plan := moveRoomPlan
  idempotencyKey := "edit-1"
  now := 1000
  newChainId := 5
  newApprovalId := fun _ => 10
  env := openEnv

def editThenReject : List BookingCommand := [.edit moveRoom, .grant (bookingAnswer 10 "rejected")]

/-- After an edit into approval and its rejection, the slot still holds the room. -/
theorem editThenReject_holdsRoom :
    ¬ ∀ (ruleInTenant : Nat → Bool) (store : BookingStore) (bookingId : Nat)
      (commands : List BookingCommand), (∃ st, InAgreement store.db bookingId st) →
        PlansAssembled ruleInTenant store commands →
          StatusesAgree ruleInTenant store bookingId commands := by
  intro hlaw
  have hstart : InAgreement confirmedBooking 1 .confirmed := by
    refine ⟨by decide, ?_, iff_of_false (by decide) ?_⟩
    · intro s hs _
      rw [List.mem_singleton.mp hs]
      exact .inr (.inr ⟨rfl, .inl rfl⟩)
    · intro hasked
      obtain ⟨r, hr, _⟩ := hasked
      exact List.not_mem_nil hr
  have hplans : PlansAssembled (fun _ => true) { db := confirmedBooking } editThenReject := by
    intro pre call post hcommands
    cases pre with
    | nil =>
      cases hcommands
      exact ⟨askingReads, 1, { spaceId := some 101 }, 0, by decide +kernel⟩
    | cons command pre =>
      simp only [editThenReject, List.cons_append, List.cons.injEq] at hcommands
      rcases List.cons_eq_append_iff.mp hcommands.2 with ⟨_, hbad⟩ | ⟨_, _, hbad⟩
      · cases hbad
      · exact absurd hbad (by simp)
  have hagree := hlaw (fun _ => true) { db := confirmedBooking } 1 editThenReject
    ⟨.confirmed, hstart⟩ hplans
  have hslots := hagree.slotsAgree editThenReject [] (List.append_nil _).symm
  revert hslots
  unfold SlotsAgree
  decide +kernel

def waitingForOne : BookingDb where
  bookings := ⟨[
    { id := 1, status := .pendingApproval, locationId := 100, startAt := 0, endAt := 3600000 }],
    by decide⟩
  slots := ⟨[
    { id := 1, bookingId := 1, spaceId := 100, startAt := 0, endAt := 3600000,
      status := .pendingApproval }], by decide⟩
  approvals := ⟨[
    { id := 9, targetEntityType := .booking, targetEntityId := 1, approvalChainId := some 4,
      parallelGroup := some "parallel-1", approverPersonId := some 7 }], by decide⟩

/-- The same move, of the booking that waits for the same person. -/
def moveWaitingRoom : EditCall :=
  { moveRoom with
    plan := { moveRoomPlan with
      approval := { moveRoomPlan.approval with
        oldOutcome := .requireApproval
        chainConfigChanged := false } } }

def moveApproveCancel : List BookingCommand :=
  [.edit moveWaitingRoom, .grant (bookingAnswer 9 "approved"),
    .cancel { bookingId := 1, idempotencyKey := "cancel-1", now := 2000, env := openEnv }]

/-- A move that changes nothing about the approval keeps the laws. -/
theorem statusesAgree_moveApproveCancel :
    StatusesAgree (fun _ => true) { db := waitingForOne } 1 moveApproveCancel := by
  refine statusesAgree_of_guarded ⟨.pendingApproval, ?_, ?_, ?_⟩ ⟨?_, ?_, trivial, trivial⟩
  · decide
  · intro s hs _
    obtain rfl := List.mem_singleton.mp hs
    exact .inr (.inr ⟨rfl, .inr rfl⟩)
  · exact iff_of_true rfl ⟨_, List.mem_singleton.mpr rfl, by decide, rfl⟩
  · intro _
    refine .inr ⟨fun _ => by decide, fun hdrops => ?_⟩
    exact absurd hdrops.1 (by decide)
  · intro a hanswers
    have hrow : (commandOne (fun _ => true) { db := waitingForOne }
        (.edit moveWaitingRoom)).db.approvals.get? 9 = waitingForOne.approvals.get? 9 := by
      decide +kernel
    have ha := hrow.symm.trans hanswers.hrow
    cases ha
    exact .inr (by decide +kernel)

end Prequest.Booking
