import Prequest.Booking.StatusAgreement

/-!
# Edits and the approval chains of a booking

The approval rows of a booking come from the rule of its room and from its
attached services. An edit replaces, drops or adds a room chain, and should leave
the service rows alone; since `edit_booking` takes all rows of the booking
together, it does so only under a condition. Plans are made before the
transaction, so two edits may be planned from the same rows.

* `chainsKept_of_guarded`: the laws for every sequence of such edits.
* `roomWithoutRule_dropsService`: an edit to a room without a rule drops the approval of a service.
-/

namespace Prequest.Booking

open Prequest.Lib Prequest.Approval

/-- One edit, as a transaction that commits or is rolled back. -/
def editOne (store : BookingStore) (call : EditCall) : BookingStore :=
  match editBooking store call with
  | .ok (store', _) => store'
  | .error _ => store

/-! ## The laws -/

/-- The row `r` of the booking expires between two states of the approvals. -/
def ExpiresRow (approvals approvals' : Table ApprovalRow) (bookingId : Nat) (r : ApprovalRow) : Prop :=
  r ∈ approvals.rows ∧ aboutBooking bookingId r = true ∧ r.status ≠ .expired ∧
    ∃ r', approvals'.get? r.id = some r' ∧ r'.status = .expired

def OfRoomChain (chainId : Option Nat) (r : ApprovalRow) : Prop :=
  fromServices r = false ∧ r.approvalChainId = chainId

def ServicesApproved (db : BookingDb) (bookingId : Nat) : Prop :=
  db.status? bookingId = some .confirmed → ∀ r ∈ db.approvals.rows,
    aboutBooking bookingId r = true → fromServices r = true → r.status ≠ .pending

def OneRoomChain (approvals : Table ApprovalRow) (bookingId : Nat) : Prop :=
  ∃ chainId, ∀ r ∈ approvals.rows, aboutBooking bookingId r = true → isLive r = true →
    fromServices r = false → r.approvalChainId = chainId

/-- The three laws for a sequence of edits. -/
structure ChainsKept (store : BookingStore) (bookingId : Nat) (calls : List EditCall) : Prop where
  expiresOwnChain : ∀ pre call post, calls = pre ++ call :: post →
    ∃ chainId, ∀ r, ExpiresRow (run editOne store pre).db.approvals
      (run editOne store (pre ++ [call])).db.approvals bookingId r → OfRoomChain chainId r
  servicesApproved : ∀ pre post, calls = pre ++ post →
    ServicesApproved (run editOne store pre).db bookingId
  oneRoomChain : ∀ pre post, calls = pre ++ post →
    OneRoomChain (run editOne store pre).db.approvals bookingId

/-- Each edit applies a plan that the planner made from the rows of before it or of before one of
the edits that went ahead of it. -/
def PlannedFromSnapshots (store : BookingStore) (calls : List EditCall) : Prop :=
  ∀ pre call post, calls = pre ++ call :: post → ∃ pre' mid, pre = pre' ++ mid ∧
    ∃ reads slotId patch resolutionAt,
      assembleEditPlan reads (run editOne store pre').db call.bookingId slotId patch resolutionAt =
        .ok call.plan

/-! ## The invariant and the condition -/

structure ChainsFit (db : BookingDb) (bookingId : Nat) : Prop where
  servicesApproved : ServicesApproved db bookingId
  oneRoomChain : OneRoomChain db.approvals bookingId

/-- An edit that replaces or drops the chain finds no service row that it would expire, and an edit
that adds a chain finds no live row of the room rule other than those it replaces. -/
def EditsOwnChain (bookingId : Nat) (store : BookingStore) (call : EditCall) : Prop :=
  call.bookingId = bookingId →
    let state := approvalState store.db.approvals bookingId
    let block := call.plan.approval
    (block.replaces state ∨ block.drops state → ∀ r ∈ store.db.approvals.rows,
      fromServices r = true → expiredByEdit state bookingId r = false) ∧
    (block.adds state → ∀ r ∈ store.db.approvals.rows, aboutBooking bookingId r = true →
      isLive r = true → fromServices r = false →
        block.replaces state ∧ expiredByEdit state bookingId r = true)

section

variable {db db' : BookingDb} {bookingId : Nat} {call : EditCall} {b : BookingRow}
  {action : EditAction}

theorem rowAfterEdit_answerOf (approvals : Table ApprovalRow) (r : ApprovalRow) :
    (rowAfterEdit call approvals action r).AnswerOf r := by
  unfold rowAfterEdit Table.updated
  split_ifs <;> rfl

variable {r' r : ApprovalRow}

theorem aboutBooking_answerOf (h : r'.AnswerOf r) :
    aboutBooking bookingId r' = aboutBooking bookingId r := by
  simp only [aboutBooking, h.targetEntityType_eq, h.targetEntityId_eq]

theorem fromServices_answerOf (h : r'.AnswerOf r) : fromServices r' = fromServices r := by
  unfold ApprovalRow.AnswerOf at h
  rw [h]
  rfl

theorem rowAfterEdit_cases (approvals : Table ApprovalRow) (r : ApprovalRow) :
    rowAfterEdit call approvals action r = r ∨
      action.expires = true ∧
        expiredByEdit (approvalState approvals call.bookingId) call.bookingId r = true ∧
        (rowAfterEdit call approvals action r).status = .expired := by
  cases hexpires : action.expires with
  | false =>
    left
    simp only [rowAfterEdit, hexpires, Bool.false_eq_true, if_false]
  | true =>
    simp only [rowAfterEdit, hexpires, if_true]
    by_cases hhit : expiredByEdit (approvalState approvals call.bookingId) call.bookingId r = true
    · refine .inr ⟨trivial, hhit, ?_⟩
      rw [Table.updated_of_true hhit]
      rfl
    · exact .inl (Table.updated_of_false (by simpa using hhit))

theorem isLive_of_expiredByEdit {state : ApprovalState}
    (h : expiredByEdit state bookingId r = true) :
    aboutBooking bookingId r = true ∧ isLive r = true := by
  simp only [expiredByEdit, Bool.and_eq_true, Bool.or_eq_true, ApprovalRow.nonTerminal] at h
  obtain ⟨habout, hwaits | happroved⟩ := h
  · rcases hwaits with hp | hd
    · exact ⟨habout, by simp [isLive, hp]⟩
    · exact ⟨habout, by simp [isLive, hd]⟩
  · exact ⟨habout, by simp [isLive, happroved.2]⟩

theorem EditDone.get?_approvals (h : EditDone db call b action db')
    (hr : r ∈ db.approvals.rows) (hget : db'.approvals.get? r.id = some r') :
    r' = rowAfterEdit call db.approvals action r := by
  obtain ⟨new, hrows, _, _⟩ := approvalsAfterEdit_rows h.happrovals
  obtain ⟨hr', hid⟩ := get?_eq_some_iff.mp hget
  refine db'.approvals.eq_of_key_eq hr' ?_ ?_
  · rw [hrows]
    exact List.mem_append.mpr (.inl (List.mem_map_of_mem hr))
  · show r'.id = (rowAfterEdit call db.approvals action r).id
    rw [hid, (rowAfterEdit_answerOf db.approvals r).id_eq]

theorem EditDone.mem_approvals (h : EditDone db call b action db') (hr' : r' ∈ db'.approvals.rows) :
    (∃ r ∈ db.approvals.rows, r' = rowAfterEdit call db.approvals action r) ∨
      action.inserts = true ∧ NewRow call r' := by
  obtain ⟨new, hrows, hnew, hinserts⟩ := approvalsAfterEdit_rows h.happrovals
  rw [hrows] at hr'
  rcases List.mem_append.mp hr' with hold | hin
  · obtain ⟨r, hr, rfl⟩ := List.mem_map.mp hold
    exact .inl ⟨r, hr, rfl⟩
  · exact .inr ⟨hinserts.mp (List.ne_nil_of_mem hin), hnew r' hin⟩

end

/-! ## What one edit keeps -/

section

variable {store store' : BookingStore} {bookingId : Nat} {call : EditCall} {b : BookingRow}
  {action : EditAction}

theorem EditsOwnChain.roomRow (h : EditsOwnChain bookingId store call)
    (hdone : EditDone store.db call b action store'.db) {r : ApprovalRow}
    (hr : r ∈ store.db.approvals.rows) (habout : aboutBooking bookingId r = true)
    (hchanged : rowAfterEdit call store.db.approvals action r ≠ r) :
    call.bookingId = bookingId ∧ fromServices r = false ∧ isLive r = true := by
  rcases rowAfterEdit_cases store.db.approvals r with hsame | ⟨hexpires, hhit, _⟩
  · exact absurd hsame hchanged
  obtain ⟨habout', hlive⟩ := isLive_of_expiredByEdit hhit
  simp only [aboutBooking, Bool.and_eq_true, beq_iff_eq] at habout habout'
  have hb : call.bookingId = bookingId := habout'.2.symm.trans habout.2
  subst hb
  refine ⟨rfl, ?_, hlive⟩
  obtain ⟨_, hexpiresIff, _⟩ := decideApproval_ok hdone.hdecided
  cases hservice : fromServices r with
  | false => rfl
  | true =>
    rw [(h rfl).1 (hexpiresIff.mp hexpires) r hr hservice] at hhit
    cases hhit

theorem EditsOwnChain.expiresOwnChain (h : EditsOwnChain bookingId store call)
    (hfit : ChainsFit store.db bookingId) (hdone : EditDone store.db call b action store'.db) :
    ∃ chainId, ∀ r, ExpiresRow store.db.approvals store'.db.approvals bookingId r →
      OfRoomChain chainId r := by
  obtain ⟨chainId, hchain⟩ := hfit.oneRoomChain
  refine ⟨chainId, ?_⟩
  intro r hexpired
  obtain ⟨hr, habout, hnot, r', hget, hstatus⟩ := hexpired
  have hrow := hdone.get?_approvals hr hget
  have hchanged : rowAfterEdit call store.db.approvals action r ≠ r := by
    intro hsame
    rw [hsame] at hrow
    exact hnot (hrow ▸ hstatus)
  obtain ⟨_, hroom, hlive⟩ := h.roomRow hdone hr habout hchanged
  exact ⟨hroom, hchain r hr habout hlive hroom⟩

theorem ServicesApproved.edit (hfit : ServicesApproved store.db bookingId)
    (hdone : EditDone store.db call b action store'.db) : ServicesApproved store'.db bookingId := by
  intro hconfirmed r' hr' habout hservice hpending
  rcases hdone.mem_approvals hr' with ⟨r, hr, rfl⟩ | ⟨_, hnew⟩
  · have hanswer := @rowAfterEdit_answerOf call action store.db.approvals r
    rw [aboutBooking_answerOf hanswer] at habout
    rw [fromServices_answerOf hanswer] at hservice
    have hsame : rowAfterEdit call store.db.approvals action r = r := by
      rcases rowAfterEdit_cases store.db.approvals r with hsame | ⟨_, _, hexpired⟩
      · exact hsame
      · rw [hexpired] at hpending
        cases hpending
    rw [hsame] at hpending
    -- The booking was confirmed before, or the edit confirmed it and expired the row.
    have hbefore : store.db.status? bookingId ≠ some .confirmed := fun hc =>
      hfit hc r hr habout hservice hpending
    rw [hdone.status?] at hconfirmed
    by_cases hb : bookingId = call.bookingId
    · subst hb
      rw [if_pos rfl, Option.some.injEq] at hconfirmed
      rw [hdone.status_eq, ne_eq, Option.some.injEq] at hbefore
      obtain ⟨_, hexpires, hnone, hwaits, hconf⟩ := decideApproval_ok hdone.hdecided
      have htarget : action.statusTarget = some .confirmed := by
        cases htarget : action.statusTarget with
        | none =>
          rw [htarget, Option.getD_none] at hconfirmed
          exact absurd hconfirmed hbefore
        | some status =>
          rw [htarget, Option.getD_some] at hconfirmed
          rw [hconfirmed]
      have hexp := hexpires.mpr (.inr (hconf.mp htarget))
      have hhit : expiredByEdit (approvalState store.db.approvals call.bookingId)
          call.bookingId r = true := by
        simp [expiredByEdit, habout, ApprovalRow.nonTerminal, hpending]
      rw [rowAfterEdit, if_pos hexp, Table.updated_of_true hhit] at hsame
      rw [← hsame] at hpending
      cases hpending
    · rw [if_neg hb] at hconfirmed
      exact hbefore hconfirmed
  · rw [fromServices, hnew.scope] at hservice
    exact absurd hservice (by decide)

theorem EditsOwnChain.oneRoomChain (h : EditsOwnChain bookingId store call)
    (hfit : OneRoomChain store.db.approvals bookingId)
    (hdone : EditDone store.db call b action store'.db) :
    OneRoomChain store'.db.approvals bookingId := by
  -- A live row that was there before has not changed.
  have hold : ∀ r, isLive (rowAfterEdit call store.db.approvals action r) = true →
      rowAfterEdit call store.db.approvals action r = r := by
    intro r hlive
    rcases rowAfterEdit_cases store.db.approvals r with hsame | ⟨_, _, hexpired⟩
    · exact hsame
    · simp [isLive, hexpired] at hlive
  by_cases hadd : action.inserts = true ∧ call.bookingId = bookingId
  · obtain ⟨hins, hb⟩ := hadd
    obtain ⟨hinserts, hexpires, _⟩ := decideApproval_ok hdone.hdecided
    refine ⟨some call.newChainId, ?_⟩
    intro r' hr' habout hlive hroom
    rcases hdone.mem_approvals hr' with ⟨r, hr, rfl⟩ | ⟨_, hnew⟩
    · exfalso
      have hsame := hold r hlive
      rw [hsame] at habout hlive hroom
      subst hb
      obtain ⟨hreplaces, hhit⟩ := (h rfl).2 (hinserts.mp hins) r hr habout hlive hroom
      rw [rowAfterEdit, if_pos (hexpires.mpr (.inl hreplaces)), Table.updated_of_true hhit] at hsame
      rw [← hsame] at hlive
      cases hlive
    · exact hnew.chain
  · obtain ⟨chainId, hchain⟩ := hfit
    refine ⟨chainId, ?_⟩
    intro r' hr' habout hlive hroom
    rcases hdone.mem_approvals hr' with ⟨r, hr, rfl⟩ | ⟨hins, hnew⟩
    · have hsame := hold r hlive
      rw [hsame] at habout hlive hroom ⊢
      exact hchain r hr habout hlive hroom
    · have hown := hnew.about
      simp only [aboutBooking, Bool.and_eq_true, beq_iff_eq] at habout hown
      exact absurd ⟨hins, hown.2.symm.trans habout.2⟩ hadd

theorem ChainsFit.edit (hfit : ChainsFit store.db bookingId)
    (h : EditsOwnChain bookingId store call) : ChainsFit (editOne store call).db bookingId ∧
      ∃ chainId, ∀ r, ExpiresRow store.db.approvals (editOne store call).db.approvals bookingId r →
        OfRoomChain chainId r := by
  -- A row that is not written does not expire.
  have hunchanged : ∃ chainId, ∀ r,
      ExpiresRow store.db.approvals store.db.approvals bookingId r → OfRoomChain chainId r := by
    refine ⟨none, ?_⟩
    intro r hexpired
    obtain ⟨hr, _, hnot, r', hget, hstatus⟩ := hexpired
    have hsame : store.db.approvals.get? r.id = some r := Table.get?_of_mem hr
    rw [hget, Option.some.injEq] at hsame
    exact absurd (hsame ▸ hstatus) hnot
  unfold editOne
  cases hedit : editBooking store call with
  | error e => exact ⟨hfit, hunchanged⟩
  | ok out =>
    obtain ⟨store', result⟩ := out
    cases editBooking_cases hedit with
    | cached hsame =>
      rw [hsame]
      exact ⟨hfit, hunchanged⟩
    | done hdone =>
      exact ⟨⟨hfit.servicesApproved.edit hdone, h.oneRoomChain hfit.oneRoomChain hdone⟩,
        h.expiresOwnChain hfit hdone⟩

end

/-- The laws for every sequence of edits that meet the condition. -/
theorem chainsKept_of_guarded {store : BookingStore} {bookingId : Nat} {calls : List EditCall}
    (hstart : ChainsFit store.db bookingId)
    (hedits : Guarded editOne (EditsOwnChain bookingId) store calls) :
    ChainsKept store bookingId calls := by
  have hfits : ∀ pre post, calls = pre ++ post → ChainsFit (run editOne store pre).db bookingId := by
    intro pre post hcalls
    rw [hcalls] at hedits
    exact hedits.take.invariant (I := fun store => ChainsFit store.db bookingId)
      (fun store call hfit hok => (hfit.edit hok).1) hstart
  refine ⟨?_, fun pre post hcalls => (hfits pre post hcalls).servicesApproved,
    fun pre post hcalls => (hfits pre post hcalls).oneRoomChain⟩
  intro pre call post hcalls
  rw [run_append]
  exact ((hfits pre _ hcalls).edit (guarded_iff.mp hedits pre call post hcalls)).2

/-! ## A service approval that is dropped -/

theorem nodup_waitingBooking :
    ([({ id := 1, status := .pendingApproval, locationId := 100, startAt := 0,
         endAt := 3600000 } : BookingRow)].map key).Nodup := by decide

theorem nodup_waitingSlot :
    ([({ id := 1, bookingId := 1, spaceId := 100, startAt := 0, endAt := 3600000,
         status := .pendingApproval } : SlotRow)].map key).Nodup := by decide

/-- A booking of a room without a rule, whose catering waits for person 22. -/
def cateringWaits : BookingDb where
  bookings := ⟨[
    { id := 1, status := .pendingApproval, locationId := 100, startAt := 0, endAt := 3600000 }],
    nodup_waitingBooking⟩
  slots := ⟨[
    { id := 1, bookingId := 1, spaceId := 100, startAt := 0, endAt := 3600000,
      status := .pendingApproval }], nodup_waitingSlot⟩
  approvals := ⟨[
    { id := 12, targetEntityType := .booking, targetEntityId := 1, approvalChainId := some 8,
      parallelGroup := some "parallel-1", approverPersonId := some 22,
      scopeBreakdown := { orderLineItemIds := [30] } }], by decide⟩

/-- No room has a rule. -/
def allowingReads : EditPlanReads :=
  { askingReads with resolve := fun _ _ _ _ => { final := .allow, approvalConfig := none } }

/-- The plan to move the booking to room 101, which has no rule. -/
def moveToFreeRoomPlan : EditPlan :=
  { moveRoomPlan with
    approval :=
      { oldOutcome := .requireApproval
        newOutcome := .allow
        chainConfigChanged := true
        newChainConfig := none } }

def moveToFreeRoom : EditCall := { moveRoom with plan := moveToFreeRoomPlan, idempotencyKey := "edit-2" }

/-- The move expires the approval of the catering. -/
theorem roomWithoutRule_dropsService :
    ¬ ∀ (store : BookingStore) (bookingId : Nat) (calls : List EditCall),
      ChainsFit store.db bookingId → PlannedFromSnapshots store calls →
        ChainsKept store bookingId calls := by
  intro hlaw
  have hfit : ChainsFit cateringWaits 1 := by
    refine ⟨fun hconfirmed => absurd hconfirmed (by decide), some 8, ?_⟩
    intro r hr _ _ _
    rw [List.mem_singleton.mp hr]
  have hplanned : PlannedFromSnapshots { db := cateringWaits } [moveToFreeRoom] := by
    intro pre call post hcalls
    rcases List.cons_eq_append_iff.mp hcalls with ⟨rfl, hcall⟩ | ⟨_, _, hbad⟩
    · cases hcall
      exact ⟨[], [], rfl, allowingReads, 1, { spaceId := some 101 }, 0, by decide +kernel⟩
    · exact absurd hbad (by simp)
  have hkept := hlaw { db := cateringWaits } 1 [moveToFreeRoom] hfit hplanned
  obtain ⟨chainId, hchain⟩ := hkept.expiresOwnChain [] moveToFreeRoom [] rfl
  obtain ⟨row, hrow⟩ : ∃ row, cateringWaits.approvals.get? 12 = some row := ⟨_, rfl⟩
  have hroom := hchain row ?_
  · cases hrow
    exact absurd hroom.1 (by decide)
  · cases hrow
    exact ⟨List.mem_singleton.mpr rfl, by decide, by decide, _, rfl, by decide +kernel⟩

/-- The same booking with its catering approved, in a room that asks person 7. -/
def roomWaits : BookingDb :=
  { waitingForOne with
    approvals := ⟨[
      { id := 9, targetEntityType := .booking, targetEntityId := 1, approvalChainId := some 4,
        parallelGroup := some "parallel-1", approverPersonId := some 7, createdAt := 20 },
      { id := 12, targetEntityType := .booking, targetEntityId := 1, approvalChainId := some 8,
        parallelGroup := some "parallel-1", approverPersonId := some 22, status := .approved,
        scopeBreakdown := { orderLineItemIds := [30] }, createdAt := 10 }], by decide⟩ }

def moveToOtherRule : EditCall :=
  { moveRoom with
    plan := { moveRoomPlan with
      approval :=
        { oldOutcome := .requireApproval
          newOutcome := .requireApproval
          chainConfigChanged := true
          newChainConfig := some ⟨[⟨.person, 8⟩], .all⟩ } } }

/-- The room chain is replaced and then dropped, and the approval of the catering stays. -/
theorem chainsKept_replaceThenDrop :
    ChainsKept { db := roomWaits } 1 [moveToOtherRule, moveToFreeRoom] := by
  refine chainsKept_of_guarded ⟨fun hconfirmed => absurd hconfirmed (by decide), some 4, ?_⟩
    ⟨?_, ?_, trivial⟩
  · decide
  · intro _
    have hrows : (∀ r ∈ roomWaits.approvals.rows, fromServices r = true →
          expiredByEdit (approvalState roomWaits.approvals 1) 1 r = false) ∧
        ∀ r ∈ roomWaits.approvals.rows, aboutBooking 1 r = true → isLive r = true →
          fromServices r = false →
            expiredByEdit (approvalState roomWaits.approvals 1) 1 r = true := by decide
    refine ⟨fun _ => hrows.1, fun _ r hr habout hlive hroom => ⟨?_, hrows.2 r hr habout hlive hroom⟩⟩
    exact ⟨rfl, rfl, by decide, rfl⟩
  · intro _
    refine ⟨fun _ => ?_, fun hadds => absurd hadds.1 (by decide)⟩
    decide +kernel

end Prequest.Booking
