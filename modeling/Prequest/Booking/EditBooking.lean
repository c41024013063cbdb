import Prequest.Booking.Command

/-!
# Editing a booking

`edit_booking` applies a plan to one booking. It holds the row lock of the
booking from before its first write, so edits of one booking run one after
another, while their plans may have been made from older rows.

The status of the booking after the edit and the approvals it expires and
inserts are decided from the outcomes in the plan and from the approval rows of
the booking as a whole: rows of the room rule and rows of attached services
count alike, and the slots keep the status they had.

* `EditDone`, `editBooking_cases`: what one call can do.
-/

namespace Prequest.Booking

open Prequest.Lib Prequest.Outbox Prequest.Approval Prequest.Command

/-- The arguments of a call, with the time of its transaction and the ids it draws. -/
structure EditCall where
  bookingId : Nat
  plan : EditPlan
  actorUserId : Option Nat := none
  idempotencyKey : String
  now : Nat
  newChainId : Nat
  /-- The id drawn for each approver, by its place in the list. -/
  newApprovalId : Nat → Nat
  env : CommandEnv

/-- The exceptions of the function. -/
inductive EditError where
  | idempotencyKeyRequired
  | actorNotFound (authUid : Nat)
  | gate (e : GateError)
  | notFound (bookingId : Nat)
  | cancelledCannotEdit (bookingId : Nat)
  | staleResolution
  | denyOnEdit (bookingId : Nat)
  | invalidPlanShape
  | entityNotInTenant (kind : EntityKind) (id : Nat)
  | workOrderNotInBooking (id : Nat)
  | orderNotFound (id : Nat)
  | orderNotInBooking (id : Nat)
  | assetReservationNotInBooking (id : Nat)
  | slotOverlap
  | duplicateApproval
  | emit (e : EmitError)
  deriving DecidableEq, Repr

/-! ## The decision -/

/-- The approvals of a booking, taken together. -/
inductive ApprovalState where
  | none
  | pending
  | terminalApproved
  | terminalRejected
  deriving DecidableEq, Repr

def countStatus (approvals : Table ApprovalRow) (bookingId : Nat) (status : ApprovalStatus) : Nat :=
  approvals.rows.countP fun r => aboutBooking bookingId r && r.status == status

def approvalState (approvals : Table ApprovalRow) (bookingId : Nat) : ApprovalState :=
  if 0 < countStatus approvals bookingId .rejected then .terminalRejected
  else if 0 < countStatus approvals bookingId .pending + countStatus approvals bookingId .delegated
    then .pending
  else if 0 < countStatus approvals bookingId .approved then .terminalApproved
  else .none

/-- `v_action`, without the two that raise. -/
inductive EditAction where
  | noop
  | insert
  | expire
  | expireAndInsert
  deriving DecidableEq, Repr

/-- The status the booking is set to; a `noop` leaves the status as it is. -/
def EditAction.statusTarget : EditAction → Option BookingStatus
  | .noop => none
  | .insert | .expireAndInsert => some .pendingApproval
  | .expire => some .confirmed

def EditAction.inserts : EditAction → Bool
  | .insert | .expireAndInsert => true
  | _ => false

def EditAction.expires : EditAction → Bool
  | .expire | .expireAndInsert => true
  | _ => false

/-- Steps 7.b and 7.c. -/
def decideApproval (bookingId : Nat) (state : ApprovalState) (block : EditPlanApproval) :
    Except EditError EditAction :=
  if state = .terminalRejected then .error (.cancelledCannotEdit bookingId)
  else if block.newOutcome = .deny then .error (.denyOnEdit bookingId)
  else match block.oldOutcome, block.newOutcome with
    | .allow, .requireApproval => .ok .insert
    | .requireApproval, .allow => .ok (if state = .pending then .expire else .noop)
    | .requireApproval, .requireApproval =>
        match state with
        | .pending | .terminalApproved =>
            .ok (if block.chainConfigChanged then .expireAndInsert else .noop)
        | _ => .ok .insert
    | _, _ => .ok .noop

/-! ## Checks -/

/-- The newest change of a rule that can decide about the booking. -/
def rulesMaxUpdatedAt (rules : List (RuleTarget × Int)) (locationId newLocationId : Nat) :
    Option Int :=
  ((rules.filter fun rule => match rule.1 with
    | .room spaceId => spaceId == locationId || spaceId == newLocationId
    | _ => true).map Prod.snd).max?

/-- The entities the plan names, in the order in which they are validated. -/
def EditPlan.entities (plan : EditPlan) : List (EntityKind × Nat) :=
  (.space, plan.booking.locationId) ::
    (plan.booking.costCenterId.join.toList.map fun id => (.costCenter, id)) ++
    (plan.booking.hostPersonId.join.toList.map fun id => (.person, id)) ++
    ((plan.booking.appliedRuleIds.getD []).map fun id => (.bookingRule, id)) ++
    (plan.slotPatches.map fun s => (.space, s.spaceId))

def ApproverType.kind : ApproverType → EntityKind
  | .person => .person
  | .team => .team

def approversToInsert (env : CommandEnv) (block : EditPlanApproval) :
    Except EditError EditPlanApprovalChainConfig :=
  match block.newChainConfig with
  | none => .error .invalidPlanShape
  | some config =>
      match config.requiredApprovers.find? fun a => !env.entityInTenant a.type.kind a.id with
      | some a => .error (.entityNotInTenant a.type.kind a.id)
      | none => if config.requiredApprovers.isEmpty then .error .invalidPlanShape else .ok config

def workOrderError (env : CommandEnv) (db : BookingDb) (bookingId : Nat)
    (patch : EditPlanWorkOrderSlaPatch) : Option EditError :=
  if !env.entityInTenant .workOrder patch.id then some (.entityNotInTenant .workOrder patch.id)
  else if !(db.workOrders.get? patch.id).any fun w => w.bookingId == some bookingId then
    some (.workOrderNotInBooking patch.id)
  else none

def orderError (db : BookingDb) (bookingId : Nat) (patch : EditPlanOrderPatch) : Option EditError :=
  match db.orders.get? patch.id with
  | none => some (.orderNotFound patch.id)
  | some o => if o.bookingId = some bookingId then none else some (.orderNotInBooking patch.id)

def assetReservationError (db : BookingDb) (bookingId : Nat)
    (patch : EditPlanAssetReservationPatch) : Option EditError :=
  if (db.assetReservations.get? patch.id).any fun r => r.bookingId == some bookingId then none
  else some (.assetReservationNotInBooking patch.id)

/-- Step 8: the first row that the plan names and that is not the tenant's or not the booking's. -/
def referenceError (env : CommandEnv) (db : BookingDb) (bookingId : Nat) (plan : EditPlan) :
    Option EditError :=
  (plan.entities.findSome? fun e =>
      if env.entityInTenant e.1 e.2 then none else some (.entityNotInTenant e.1 e.2)) <|>
    plan.workOrderSlaPatches.findSome? (workOrderError env db bookingId) <|>
    plan.orderPatches.findSome? (orderError db bookingId) <|>
    plan.assetReservationPatches.findSome? (assetReservationError db bookingId)

/-! ## Writes -/

def patchesSlot (bookingId : Nat) (patch : EditPlanSlotPatch) (s : SlotRow) : Bool :=
  s.id == patch.slotId && s.bookingId == bookingId

/-- A slot after its patch. Its status is not among the assigned columns. -/
def applySlotPatch (patch : EditPlanSlotPatch) : Table.Assignment SlotRow :=
  ⟨fun s => { s with
      spaceId := patch.spaceId
      startAt := patch.startAt
      endAt := patch.endAt
      setupBufferMinutes := patch.setupBufferMinutes.getD s.setupBufferMinutes
      teardownBufferMinutes := patch.teardownBufferMinutes.getD s.teardownBufferMinutes
      attendeeCount := patch.attendeeCount.getD s.attendeeCount
      attendeePersonIds := patch.attendeePersonIds.getD s.attendeePersonIds },
    fun _ => rfl⟩

/-- `time_range` of a slot: its window with the buffers. -/
def SlotRow.timeRange (s : SlotRow) : Int × Int :=
  (s.startAt - 60000 * s.setupBufferMinutes, s.endAt + 60000 * s.teardownBufferMinutes)

def SlotRow.overlaps (s t : SlotRow) : Bool :=
  s.spaceId == t.spaceId && s.status.blocksRoom && t.status.blocksRoom &&
    decide (s.timeRange.1 < t.timeRange.2) && decide (t.timeRange.1 < s.timeRange.2)

/-- `booking_slots_no_overlap` is violated. -/
def hasOverlap (slots : Table SlotRow) : Bool :=
  slots.rows.any fun s => slots.rows.any fun t => s.id != t.id && s.overlaps t

def applySlotPatches (slots : Table SlotRow) (bookingId : Nat) (patches : List EditPlanSlotPatch) :
    Except EditError (Table SlotRow) :=
  patches.foldlM (fun slots patch =>
    let slots := slots.update (patchesSlot bookingId patch) (applySlotPatch patch)
    if hasOverlap slots then .error .slotOverlap else .ok slots) slots

def editedBooking (patch : EditPlanBookingPatch) (status : BookingStatus) (now : Nat)
    (b : BookingRow) : BookingRow :=
  { b with
    locationId := patch.locationId
    startAt := patch.startAt
    endAt := patch.endAt
    costAmountSnapshot := patch.costAmountSnapshot
    policySnapshot := patch.policySnapshot.getD b.policySnapshot
    appliedRuleIds := patch.appliedRuleIds.getD b.appliedRuleIds
    costCenterId := patch.costCenterId.getD b.costCenterId
    calendarEtag := patch.calendarEtag.getD b.calendarEtag
    hostPersonId := patch.hostPersonId.getD b.hostPersonId
    recurrenceOverridden := patch.recurrenceOverridden.getD b.recurrenceOverridden
    configReleaseId := patch.configReleaseId.getD b.configReleaseId
    status := status
    updatedAt := now }

/-- Whether an edit that expires ends the row: the rows that wait, and the approved ones when none
waits. -/
def expiredByEdit (state : ApprovalState) (bookingId : Nat) (r : ApprovalRow) : Bool :=
  aboutBooking bookingId r &&
    (r.nonTerminal || state == .terminalApproved && r.status == .approved)

def supersede (now : Nat) : Table.Assignment ApprovalRow :=
  ⟨fun r => { r with
      status := .expired
      respondedAt := some now
      comments := some ("superseded_by_edit (booking edit at " ++ toString now ++ ")") },
    fun _ => rfl⟩

def expireForEdit (approvals : Table ApprovalRow) (state : ApprovalState) (bookingId now : Nat) :
    Table ApprovalRow :=
  approvals.update (expiredByEdit state bookingId) (supersede now)

def newApprovalRow (call : EditCall) (threshold : ChainThreshold) (approver : Approver) (id : Nat) :
    ApprovalRow where
  id := id
  targetEntityType := .booking
  targetEntityId := call.bookingId
  approvalChainId := some call.newChainId
  parallelGroup := if threshold = .all then some (parallelMarker call.bookingId) else none
  approverPersonId := if approver.type = .person then some approver.id else none
  approverTeamId := if approver.type = .team then some approver.id else none
  status := .pending
  createdAt := call.now

/-- `uq_approvals_pending_dedup`: a person has one pending row for an entity. -/
def alreadyAsked (approvals : Table ApprovalRow) (row : ApprovalRow) : Bool :=
  row.approverPersonId.isSome && approvals.rows.any fun r =>
    r.status == .pending && r.targetEntityId == row.targetEntityId &&
      r.approverPersonId == row.approverPersonId

def insertApprovers (approvals : Table ApprovalRow) (rows : List ApprovalRow) :
    Except EditError (Table ApprovalRow) :=
  rows.foldlM (fun approvals row =>
    if alreadyAsked approvals row then .error .duplicateApproval
    else match approvals.insert? row with
      | none => .error .duplicateApproval
      | some approvals => .ok approvals) approvals

def newApprovalRows (call : EditCall) (config : EditPlanApprovalChainConfig) : List ApprovalRow :=
  config.requiredApprovers.zipIdx.map fun p =>
    newApprovalRow call config.threshold p.1 (call.newApprovalId p.2)

def applyAssetPatch (bookingId : Nat) (rows : Table AssetReservationRow)
    (patch : EditPlanAssetReservationPatch) : Table AssetReservationRow :=
  rows.update (fun r => r.id == patch.id && r.bookingId == some bookingId)
    ⟨fun r => { r with startAt := patch.startAt, endAt := patch.endAt }, fun _ => rfl⟩

def applyOrderPatch (bookingId : Nat) (rows : Table OrderRow) (patch : EditPlanOrderPatch) :
    Table OrderRow :=
  rows.update (fun o => o.id == patch.id && o.bookingId == some bookingId)
    ⟨fun o => { o with
        deliveryLocationId := patch.deliveryLocationId.getD o.deliveryLocationId
        requestedForStartAt := patch.requestedForStartAt.getD o.requestedForStartAt
        requestedForEndAt := patch.requestedForEndAt.getD o.requestedForEndAt },
      fun _ => rfl⟩

def applyWorkOrderPatch (bookingId : Nat) (rows : Table WorkOrderRow)
    (patch : EditPlanWorkOrderSlaPatch) : Table WorkOrderRow :=
  rows.update (fun w => w.id == patch.id && w.bookingId == some bookingId)
    ⟨fun w => { w with
        plannedStartAt := some patch.plannedStartAt
        slaResolutionDueAt := patch.slaDueAt.getD w.slaResolutionDueAt },
      fun _ => rfl⟩

/-! ## The function -/

section

variable (call : EditCall)

/-- The events of an edit, in the order in which they are emitted. -/
def editEvents (b : BookingRow) (action : EditAction) :
    List (FollowUp × Event BookingEventKey BookingEvent) :=
  let patch := call.plan.booking
  let approvers := (call.plan.approval.newChainConfig.map (·.requiredApprovers)).getD []
  (if b.locationId = patch.locationId then [] else
    [(.locationChanged, ⟨.bookingLocationChanged b.id call.idempotencyKey,
      .bookingLocationChanged b.id b.locationId patch.locationId call.now⟩)]) ++
  (if b.costAmountSnapshot = patch.costAmountSnapshot then [] else
    [(.costChanged, ⟨.bookingCostChanged b.id call.idempotencyKey,
      .bookingCostChanged b.id b.costAmountSnapshot patch.costAmountSnapshot call.now⟩)]) ++
  (if action.inserts then
    [(.approvalRequired, ⟨.bookingApprovalRequired b.id call.idempotencyKey,
      .bookingApprovalRequired b.id call.newChainId
        ((approvers.filter fun a => a.type == .person).map Approver.id)
        ((approvers.filter fun a => a.type == .team).map Approver.id) call.now⟩)]
    else []) ++
  ((call.plan.workOrderSlaPatches.filter (·.needsRepoint)).map fun w =>
    (.timerRepointedRequired, ⟨.slaTimerRepointedRequired w.id call.idempotencyKey,
      .slaTimerRepointedRequired w.id w.slaPolicyId call.now⟩))

def approvalsAfterEdit (approvals : Table ApprovalRow) (action : EditAction) :
    Except EditError (Table ApprovalRow) :=
  let expired :=
    if action.expires then
      expireForEdit approvals (approvalState approvals call.bookingId) call.bookingId call.now
    else approvals
  if action.inserts then
    match approversToInsert call.env call.plan.approval with
    | .error e => .error e
    | .ok config => insertApprovers expired (newApprovalRows call config)
  else .ok expired

/-- Steps 10 to 12, on the booking `b` with the action decided: write the rows and emit. -/
def applyEdit (store : BookingStore) (b : BookingRow) (action : EditAction) :
    Except EditError (BookingDb × BookingResult) :=
  let plan := call.plan
  let db := store.db
  match applySlotPatches db.slots b.id plan.slotPatches with
  | .error e => .error e
  | .ok slots =>
      let edited := editedBooking plan.booking (action.statusTarget.getD b.status) call.now b
      match approvalsAfterEdit call db.approvals action with
      | .error e => .error e
      | .ok approvals =>
          let events := editEvents call b action
          match emitAll db.outbox (events.map Prod.snd) with
          | .error e => .error (.emit e)
          | .ok outbox => .ok
              ({ db with
                  slots := slots
                  bookings := db.bookings.update (fun r => r.id == b.id)
                    ⟨editedBooking plan.booking (action.statusTarget.getD b.status) call.now,
                      fun _ => rfl⟩
                  assetReservations :=
                    plan.assetReservationPatches.foldl (applyAssetPatch b.id) db.assetReservations
                  orders := plan.orderPatches.foldl (applyOrderPatch b.id) db.orders
                  approvals := approvals
                  workOrders :=
                    plan.workOrderSlaPatches.foldl (applyWorkOrderPatch b.id) db.workOrders
                  domainEvents := db.domainEvents ++
                    [{ eventType := "booking.edited", entityType := "booking", entityId := b.id }]
                  outbox := outbox },
                .edited edited (events.map Prod.fst)
                  (plan.slotPatches.countP fun p => db.slots.rows.any (patchesSlot b.id p))
                  plan.assetReservationPatches.length plan.orderPatches.length
                  plan.workOrderSlaPatches.length)

/-- Steps 4 to 12, once the gate has let the call through. -/
def editFresh (store : BookingStore) :
    Except EditError (BookingDb × BookingResult) :=
  match store.db.bookings.get? call.bookingId with
  | none => .error (.notFound call.bookingId)
  | some b =>
      if b.status = .cancelled then .error (.cancelledCannotEdit call.bookingId)
      else if (rulesMaxUpdatedAt call.env.rules b.locationId call.plan.booking.locationId).any
          fun t => decide (call.plan.resolutionAt < t) then .error .staleResolution
      else match decideApproval call.bookingId (approvalState store.db.approvals call.bookingId)
          call.plan.approval with
        | .error e => .error e
        | .ok action =>
            match (if action.inserts then approversToInsert call.env call.plan.approval
              else .ok ⟨[], .all⟩) with
            | .error e => .error e
            | .ok _ =>
                match referenceError call.env store.db call.bookingId call.plan with
                | some e => .error e
                | none => applyEdit call store b action

end

/-- What the hash of a plan is taken of: it leaves out what is read of the rows before the edit. -/
def EditPlan.hashed (plan : EditPlan) : EditPlan :=
  { plan with
    resolutionAt := 0
    approval := { plan.approval with oldOutcome := .allow, chainConfigChanged := false } }

def editPayload (plan : EditPlan) : BookingPayload := .edit plan.hashed

/-- `edit_booking`. -/
def editBooking (store : BookingStore) (call : EditCall) :
    Except EditError (BookingStore × BookingResult) :=
  if call.idempotencyKey = "" then .error .idempotencyKeyRequired
  else match call.actorUserId with
    | some authUid =>
        if (call.env.userOf authUid).isNone then .error (.actorNotFound authUid)
        else gated store call
    | none => gated store call
where
  gated (store : BookingStore) (call : EditCall) :
      Except EditError (BookingStore × BookingResult) :=
    match gate store.operations call.idempotencyKey (editPayload call.plan) with
    | .error e => .error (.gate e)
    | .ok (.cached result) => .ok (store, result)
    | .ok .proceed =>
        match editFresh call store with
        | .error e => .error e
        | .ok (db, result) => .ok
            ({ store with
                db := db
                operations := finish (begin store.operations call.idempotencyKey
                  (editPayload call.plan)) call.idempotencyKey result },
              result)

/-! ## What a call can do -/

def KeepsSlotStatus (slots slots' : Table SlotRow) : Prop :=
  ∃ g : SlotRow → SlotRow, slots'.rows = slots.rows.map g ∧
    ∀ s, (g s).bookingId = s.bookingId ∧ (g s).status = s.status

theorem KeepsSlotStatus.refl (slots : Table SlotRow) : KeepsSlotStatus slots slots :=
  ⟨id, (List.map_id _).symm, fun _ => ⟨rfl, rfl⟩⟩

theorem KeepsSlotStatus.trans {a b c : Table SlotRow} (h : KeepsSlotStatus a b)
    (h' : KeepsSlotStatus b c) : KeepsSlotStatus a c := by
  obtain ⟨f, hf, hfs⟩ := h
  obtain ⟨g, hg, hgs⟩ := h'
  refine ⟨g ∘ f, by rw [hg, hf, List.map_map], ?_⟩
  intro s
  exact ⟨(hgs (f s)).1.trans (hfs s).1, (hgs (f s)).2.trans (hfs s).2⟩

theorem keepsSlotStatus_update (slots : Table SlotRow) (bookingId : Nat)
    (patch : EditPlanSlotPatch) :
    KeepsSlotStatus slots (slots.update (patchesSlot bookingId patch) (applySlotPatch patch)) := by
  refine ⟨_, rfl, ?_⟩
  intro s
  unfold Table.updated
  split
  · exact ⟨rfl, rfl⟩
  · exact ⟨rfl, rfl⟩

theorem applySlotPatches_keepsSlotStatus {bookingId : Nat} {patches : List EditPlanSlotPatch}
    {slots slots' : Table SlotRow} (h : applySlotPatches slots bookingId patches = .ok slots') :
    KeepsSlotStatus slots slots' := by
  induction patches generalizing slots with
  | nil =>
    cases h
    exact .refl _
  | cons patch patches ih =>
    simp only [applySlotPatches, List.foldlM_cons] at h
    by_cases hoverlap : hasOverlap
        (slots.update (patchesSlot bookingId patch) (applySlotPatch patch)) = true
    · rw [if_pos hoverlap] at h
      cases h
    · rw [if_neg hoverlap] at h
      exact (keepsSlotStatus_update slots bookingId patch).trans (ih h)

/-- The call applied its plan to the booking `b` with the action `action`. -/
structure EditDone (db : BookingDb) (call : EditCall) (b : BookingRow) (action : EditAction)
    (db' : BookingDb) : Prop where
  hbooking : db.bookings.get? call.bookingId = some b
  hnotCancelled : b.status ≠ .cancelled
  hdecided : decideApproval call.bookingId (approvalState db.approvals call.bookingId)
    call.plan.approval = .ok action
  hslots : KeepsSlotStatus db.slots db'.slots
  hbookings : db'.bookings = db.bookings.update (fun r => r.id == b.id)
    ⟨editedBooking call.plan.booking (action.statusTarget.getD b.status) call.now, fun _ => rfl⟩
  happrovals : approvalsAfterEdit call db.approvals action = .ok db'.approvals

/-- The ways a call ends without raising. -/
inductive EditStep (store : BookingStore) (call : EditCall) : BookingStore → Prop where
  /-- The key was used for the same edit before. -/
  | cached {store' : BookingStore} (hsame : store' = store) : EditStep store call store'
  | done {store' : BookingStore} {b : BookingRow} {action : EditAction}
      (h : EditDone store.db call b action store'.db) : EditStep store call store'

variable {call : EditCall} {store : BookingStore} {result : BookingResult}
  {approvals approvals' : Table ApprovalRow} {config : EditPlanApprovalChainConfig}
  {store' : BookingStore}

theorem applyEdit_done {b : BookingRow} {action : EditAction} {db' : BookingDb}
    (h : applyEdit call store b action = .ok (db', result))
    (hbooking : store.db.bookings.get? call.bookingId = some b)
    (hnotCancelled : b.status ≠ .cancelled)
    (hdecided : decideApproval call.bookingId (approvalState store.db.approvals call.bookingId)
      call.plan.approval = .ok action) : EditDone store.db call b action db' := by
  simp only [applyEdit] at h
  split at h
  · cases h
  rename_i slots hslots
  split at h
  · cases h
  rename_i approvals happrovals
  split at h
  · cases h
  cases h
  exact ⟨hbooking, hnotCancelled, hdecided, applySlotPatches_keepsSlotStatus hslots, rfl,
    happrovals⟩

theorem editFresh_done {db' : BookingDb} (h : editFresh call store = .ok (db', result)) :
    ∃ b action, EditDone store.db call b action db' := by
  simp only [editFresh] at h
  split at h
  · cases h
  rename_i b hbooking
  split at h
  · cases h
  rename_i hnotCancelled
  split at h
  · cases h
  split at h
  · cases h
  rename_i action hdecided
  split at h
  · cases h
  split at h
  · cases h
  · exact ⟨b, action, applyEdit_done h hbooking hnotCancelled hdecided⟩

theorem gated_cases (h : editBooking.gated store call = .ok (store', result)) :
    EditStep store call store' := by
  simp only [editBooking.gated] at h
  split at h
  · cases h
  · cases h
    exact .cached rfl
  · split at h
    · cases h
    · rename_i hfresh
      cases h
      obtain ⟨b, action, hdone⟩ := editFresh_done hfresh
      exact .done hdone

theorem editBooking_cases (h : editBooking store call = .ok (store', result)) :
    EditStep store call store' := by
  simp only [editBooking] at h
  split at h
  · cases h
  · split at h
    · split at h
      · cases h
      · exact gated_cases h
    · exact gated_cases h

/-! ## The decision, in the terms of the plan -/

section

variable (block : EditPlanApproval) (state : ApprovalState)

def EditPlanApproval.adds : Prop :=
  block.newOutcome = .requireApproval ∧
    (block.oldOutcome = .allow ∨
      block.oldOutcome = .requireApproval ∧ (state = .none ∨ block.chainConfigChanged = true))

def EditPlanApproval.replaces : Prop :=
  block.newOutcome = .requireApproval ∧ block.oldOutcome = .requireApproval ∧ state ≠ .none ∧
    block.chainConfigChanged = true

/-- The plan needs no approval any more while the booking waits for one. -/
def EditPlanApproval.drops : Prop :=
  block.newOutcome = .allow ∧ block.oldOutcome = .requireApproval ∧ state = .pending

end

section

variable {bookingId : Nat} {state : ApprovalState} {block : EditPlanApproval} {action : EditAction}

theorem decideApproval_ok (h : decideApproval bookingId state block = .ok action) :
    (action.inserts = true ↔ block.adds state) ∧
      (action.expires = true ↔ block.replaces state ∨ block.drops state) ∧
      (action.statusTarget = none ↔ ¬ block.adds state ∧ ¬ block.drops state) ∧
      (action.statusTarget = some .pendingApproval ↔ block.adds state) ∧
      (action.statusTarget = some .confirmed ↔ block.drops state) := by
  obtain ⟨old, new, changed, config⟩ := block
  simp only [decideApproval] at h
  simp only [EditPlanApproval.adds, EditPlanApproval.replaces, EditPlanApproval.drops]
  cases old <;> cases new <;> cases state <;> cases changed <;>
    simp only [reduceCtorEq, if_true, if_false, Except.ok.injEq, Bool.false_eq_true] at h <;>
    subst h <;> simp [EditAction.inserts, EditAction.expires, EditAction.statusTarget]

end

/-! ## The approval rows after an edit -/

def rowAfterEdit (call : EditCall) (approvals : Table ApprovalRow) (action : EditAction)
    (r : ApprovalRow) : ApprovalRow :=
  if action.expires then
    Table.updated (expiredByEdit (approvalState approvals call.bookingId) call.bookingId)
      (supersede call.now) r
  else r

structure NewRow (call : EditCall) (r : ApprovalRow) : Prop where
  pending : r.status = .pending
  about : aboutBooking call.bookingId r = true
  chain : r.approvalChainId = some call.newChainId
  scope : r.scopeBreakdown = {}

theorem insertApprovers_rows {rows : List ApprovalRow}
    (h : insertApprovers approvals rows = .ok approvals') :
    approvals'.rows = approvals.rows ++ rows := by
  induction rows generalizing approvals with
  | nil =>
    cases h
    exact (List.append_nil _).symm
  | cons row rows ih =>
    simp only [insertApprovers, List.foldlM_cons] at h
    by_cases hasked : alreadyAsked approvals row = true
    · rw [if_pos hasked] at h
      cases h
    · rw [if_neg hasked] at h
      cases hinsert : approvals.insert? row with
      | none =>
        simp only [hinsert] at h
        cases h
      | some mid =>
        simp only [hinsert] at h
        rw [ih h, (Table.insert?_eq_some hinsert).1, List.append_assoc]
        rfl

theorem newRow_of_mem {r : ApprovalRow} (h : r ∈ newApprovalRows call config) : NewRow call r := by
  obtain ⟨p, _, rfl⟩ := List.mem_map.mp h
  refine ⟨rfl, ?_, rfl, rfl⟩
  simp [aboutBooking, newApprovalRow]

theorem newApprovalRows_ne_nil {env : CommandEnv} {block : EditPlanApproval}
    (h : approversToInsert env block = .ok config) : newApprovalRows call config ≠ [] := by
  unfold approversToInsert at h
  split at h
  · cases h
  · split at h
    · cases h
    · split at h
      · cases h
      · rename_i hnonempty
        cases h
        simpa [newApprovalRows] using hnonempty

theorem approvalsAfterEdit_rows {action : EditAction}
    (h : approvalsAfterEdit call approvals action = .ok approvals') :
    ∃ new, approvals'.rows = approvals.rows.map (rowAfterEdit call approvals action) ++ new ∧
      (∀ r ∈ new, NewRow call r) ∧ (new ≠ [] ↔ action.inserts = true) := by
  have hexpired : (if action.expires then
      expireForEdit approvals (approvalState approvals call.bookingId) call.bookingId call.now
      else approvals).rows = approvals.rows.map (rowAfterEdit call approvals action) := by
    unfold rowAfterEdit
    cases action.expires with
    | true => rfl
    | false => exact (List.map_id _).symm
  simp only [approvalsAfterEdit] at h
  cases hinserts : action.inserts with
  | false =>
    simp only [hinserts, Bool.false_eq_true, if_false, Except.ok.injEq] at h
    refine ⟨[], ?_, fun r hr => absurd hr List.not_mem_nil, by simp⟩
    rw [← h, hexpired, List.append_nil]
  | true =>
    simp only [hinserts, if_true] at h
    cases happrovers : approversToInsert call.env call.plan.approval with
    | error e =>
      simp only [happrovers] at h
      cases h
    | ok config =>
      simp only [happrovers] at h
      refine ⟨newApprovalRows call config, ?_, fun r hr => newRow_of_mem hr, ?_⟩
      · rw [insertApprovers_rows h, hexpired]
      · exact iff_of_true (newApprovalRows_ne_nil happrovers) rfl

end Prequest.Booking
