import Prequest.Booking.EditBooking
import Prequest.Orders.AttachPlan

/-!
# Creating a booking

`BookingFlowService.create` books one room and `MultiRoomBookingService.createGroup`
several, each with attached services. Both build a plan, apply it in one
transaction, `create_booking_with_attach_plan`, and then make sure that the
approvers of the room rule are asked. A retry under the same key is answered from
`attach_operations` and goes on to the last step again, which first looks whether
the booking has approval rows already.
-/

namespace Prequest.Booking

open Prequest.Lib Prequest.Outbox Prequest.Approval Prequest.Command Prequest.Orders

/-! ## The transaction -/

structure AttachPlanBookingSlot where
  id : Nat
  spaceId : Nat
  startAt : Int
  endAt : Int
  setupBufferMinutes : Nat := 0
  teardownBufferMinutes : Nat := 0
  attendeeCount : Option Nat := none
  attendeePersonIds : List Nat := []
  checkInRequired : Bool := false
  checkInGraceMinutes : Nat := 15
  deriving DecidableEq, Repr

structure BookingInput where
  bookingId : Nat
  requesterPersonId : Nat := 0
  hostPersonId : Option Nat := none
  locationId : Nat
  startAt : Int
  endAt : Int
  status : BookingStatus
  costCenterId : Option Nat := none
  costAmountSnapshot : Option Int := none
  policySnapshot : String := ""
  appliedRuleIds : List Nat := []
  recurrenceSeriesId : Option Nat := none
  recurrenceIndex : Option Nat := none
  slots : List AttachPlanBookingSlot
  deriving DecidableEq, Repr

structure CreateResult where
  bookingId : Nat
  approvalIds : List PlanUuid
  anyPendingApproval : Bool
  deriving DecidableEq, Repr

structure CreateStore where
  db : BookingDb
  operations : Table (CommandOperation String (BookingInput × AttachPlan) CreateResult) := Table.empty

inductive CreateError where
  | plan (e : BuildAttachPlanError)
  | invalidInput
  | spaceNotFound (spaceId : Nat)
  | ruleDeny
  | overrideReasonRequired
  | multiRoomRequiresTwo
  | multiRoomTooMany
  | gate (e : GateError)
  | serviceRuleDeny
  | referencesInvalid
  | uniqueViolation
  | slotConflict
  | emit (e : EmitError)
  deriving DecidableEq, Repr

section

variable (uuid : PlanUuid → Nat)

section

variable (input : BookingInput)

def slotRowOf (slot : AttachPlanBookingSlot) : SlotRow where
  id := slot.id
  bookingId := input.bookingId
  spaceId := slot.spaceId
  startAt := slot.startAt
  endAt := slot.endAt
  setupBufferMinutes := slot.setupBufferMinutes
  teardownBufferMinutes := slot.teardownBufferMinutes
  status := input.status
  attendeeCount := slot.attendeeCount
  attendeePersonIds := slot.attendeePersonIds
  checkInRequired := slot.checkInRequired
  checkInGraceMinutes := slot.checkInGraceMinutes

def bookingRowOf : BookingRow where
  id := input.bookingId
  requesterPersonId := input.requesterPersonId
  status := input.status
  locationId := input.locationId
  startAt := input.startAt
  endAt := input.endAt
  recurrenceSeriesId := input.recurrenceSeriesId
  recurrenceIndex := input.recurrenceIndex
  costAmountSnapshot := input.costAmountSnapshot
  costCenterId := input.costCenterId
  hostPersonId := input.hostPersonId
  policySnapshot := input.policySnapshot
  appliedRuleIds := input.appliedRuleIds

def orderRowOf (order : AttachPlanOrder) : OrderRow where
  id := uuid order.id
  bookingId := some input.bookingId
  status := match order.initialStatus with
    | .submitted => .submitted
    | .approved => .approved
  deliveryLocationId := some order.deliveryLocationId
  requestedForStartAt := some order.requestedForStartAt
  requestedForEndAt := some order.requestedForEndAt

def assetReservationRowOf (reservation : AttachPlanAssetReservation) :
    AssetReservationRow where
  id := uuid reservation.id
  bookingId := some input.bookingId
  status := .confirmed
  startAt := reservation.startAt.getD input.startAt
  endAt := reservation.endAt.getD input.endAt

end

def orderLineItemRowOf (line : AttachPlanOrderLineItem) : OrderLineItem where
  id := uuid line.id
  orderId := uuid line.orderId
  fulfillmentStatus := .ordered
  pendingSetupTriggerArgs := line.pendingSetupTriggerArgs
  linkedAssetReservationId := line.linkedAssetReservationId.map uuid

def scopeBreakdownOf (scope : PlanScopeBreakdown) : ScopeBreakdown where
  reservationIds := scope.reservationIds
  orderIds := scope.orderIds.map uuid
  orderLineItemIds := scope.orderLineItemIds.map uuid
  ticketIds := scope.ticketIds
  assetReservationIds := scope.assetReservationIds.map uuid
  reasons := scope.reasons

def approvalRowOfPlan (now : Nat) (approval : AttachPlanApproval) : ApprovalRow where
  id := uuid approval.id
  targetEntityType := .booking
  targetEntityId := approval.targetEntityId
  approvalChainId := approval.approvalChainId.map uuid
  parallelGroup := approval.parallelGroup
  approverPersonId := approval.approverPersonId
  approverTeamId := approval.approverTeamId
  chainThreshold := approval.chainThreshold
  scopeBreakdown := scopeBreakdownOf uuid approval.scopeBreakdown
  createdAt := now

/-- The arguments of `setup_emit` as the operators `->` and `->>` read them. -/
def setupEmitArgs : Jsonb AttachPlanSetupEmit → SetupTriggerArgs
  | .null => {}
  | .object setup =>
      { serviceCategory := some setup.serviceCategory
        ruleIds := some setup.ruleIds
        leadTimeOverride := setup.leadTimeOverrideMinutes.map Int.ofNat }

def createSetupEvent (input : BookingInput) (line : AttachPlanOrderLineItem)
    (setup : Jsonb AttachPlanSetupEmit) : Event BookingEventKey BookingEvent where
  idempotencyKey := .setupWorkOrderCreateRequired (uuid line.id)
  payload := .setupWorkOrderCreateRequired input.bookingId (uuid line.id)
    { setupEmitArgs setup with
      serviceWindowStartAt := line.line.serviceWindowStartAt
      locationId := some input.locationId
      originSurface := some "bundle" } false

def insertAll {ρ κ : Type} [Keyed ρ κ] [DecidableEq κ] (t : Table ρ) (rows : List ρ) :
    Except CreateError (Table ρ) :=
  rows.foldlM (fun t row => match t.insert? row with
    | none => .error .uniqueViolation
    | some t => .ok t) t

/-- The rows of one `INSERT` into `approvals`. -/
def insertApprovalRows (approvals : Table ApprovalRow) (rows : List ApprovalRow) :
    Except CreateError (Table ApprovalRow) :=
  match insertApprovers approvals rows with
  | .ok approvals => .ok approvals
  | .error _ => .error .uniqueViolation

/-- The writes of `create_booking_with_attach_plan`. A line with a `setup_emit` that is JSON `null`
passes the test of the function, so its event is among the emits. -/
def insertPlan (db : BookingDb) (input : BookingInput) (plan : AttachPlan) (key : String) (now : Nat) :
    Except CreateError BookingDb :=
  match insertAll db.bookings [bookingRowOf input] with
  | .error e => .error e
  | .ok bookings =>
  match insertAll db.slots (input.slots.map (slotRowOf input)) with
  | .error e => .error e
  | .ok slots =>
  if hasOverlap slots then .error .slotConflict
  else match insertAll db.orders (plan.orders.map (orderRowOf uuid input)) with
  | .error e => .error e
  | .ok orders =>
  match insertAll db.assetReservations
      (plan.assetReservations.map (assetReservationRowOf uuid input)) with
  | .error e => .error e
  | .ok assetReservations =>
  match insertAll db.orderLineItems (plan.orderLineItems.map (orderLineItemRowOf uuid)) with
  | .error e => .error e
  | .ok orderLineItems =>
  match insertApprovalRows db.approvals (plan.approvals.map (approvalRowOfPlan uuid now)) with
  | .error e => .error e
  | .ok approvals =>
  let setups := if plan.anyPendingApproval then []
    else plan.orderLineItems.filterMap fun line =>
      line.setupEmit.map fun setup => createSetupEvent uuid input line setup
  match emitAll db.outbox (setups ++ [⟨.bookingCreated input.bookingId key,
      .bookingCreated input.bookingId input.locationId input.status now⟩]) with
  | .error e => .error (.emit e)
  | .ok outbox => .ok
      { db with
        bookings := bookings
        slots := slots
        orders := orders
        assetReservations := assetReservations
        orderLineItems := orderLineItems
        approvals := approvals
        outbox := outbox }

/-- `create_booking_with_attach_plan`. The two validators of the plan's references are `valid`. -/
def createBookingWithAttachPlan (valid : BookingInput → AttachPlan → Bool) (store : CreateStore)
    (input : BookingInput) (plan : AttachPlan) (key : String) (now : Nat) :
    Except CreateError (CreateStore × CreateResult) :=
  match gate store.operations key (input, plan) with
  | .error e => .error (.gate e)
  | .ok (.cached result) => .ok (store, result)
  | .ok .proceed =>
      if plan.anyDeny then .error .serviceRuleDeny
      else if !valid input plan then .error .referencesInvalid
      else match insertPlan uuid store.db input plan key now with
        | .error e => .error e
        | .ok db =>
            let result : CreateResult :=
              { bookingId := input.bookingId
                approvalIds := plan.approvals.map AttachPlanApproval.id
                anyPendingApproval := plan.anyPendingApproval }
            .ok ({ db := db, operations := finish (begin store.operations key (input, plan)) key result },
              result)

end

/-! ## The step after the transaction -/

/-- The booking has an approval row of a chain that is pending or approved. A row of a service is
one as well. -/
def hasRoomApprovalRows (approvals : Table ApprovalRow) (bookingId : Nat) : Bool :=
  approvals.rows.any fun r =>
    aboutBooking bookingId r && r.approvalChainId.isSome &&
      (r.status == .pending || r.status == .approved)

structure Draws where
  chainId : Nat
  approvalId : Nat → Nat
  now : Nat

def roomApprovalRow (draws : Draws) (bookingId : Nat) (threshold : ChainThreshold)
    (approver : Approver) (id : Nat) : ApprovalRow where
  id := id
  targetEntityType := .booking
  targetEntityId := bookingId
  approvalChainId := some draws.chainId
  parallelGroup := if threshold = .all then some (parallelMarker bookingId) else none
  chainThreshold := threshold
  approverPersonId := if approver.type = .person then some approver.id else none
  approverTeamId := if approver.type = .team then some approver.id else none
  status := .pending
  createdAt := draws.now

def roomApprovalRows (draws : Draws) (bookingId : Nat) (config : ApprovalConfig) : List ApprovalRow :=
  config.requiredApprovers.zipIdx.map fun p =>
    roomApprovalRow draws bookingId (config.threshold.getD .all) p.1 (draws.approvalId p.2)

def createApprovalRows (approvals : Table ApprovalRow) (draws : Draws) (bookingId : Nat)
    (config : ApprovalConfig) : Except CreateError (Table ApprovalRow) :=
  if config.requiredApprovers.isEmpty then .ok approvals
  else if hasRoomApprovalRows approvals bookingId then .ok approvals
  else insertApprovalRows approvals (roomApprovalRows draws bookingId config)

/-! ## Plans -/

structure MatchedRule where
  id : Nat
  requiresApproval : Bool
  specificity : Nat
  priority : Int
  deriving DecidableEq, Repr

structure RoomOutcome extends ResolveOutcome where
  matchedRules : List MatchedRule := []
  overridable : Bool := false
  approvalWorkflowDefinitionId : Option Nat := none
  deriving DecidableEq, Repr

/-- The request, for one room or several. -/
structure CreateInput where
  spaceIds : List Nat
  requesterPersonId : Nat
  hostPersonId : Option Nat := none
  startAt : Int
  endAt : Int
  attendeeCount : Option Nat := none
  attendeePersonIds : List Nat := []
  costCenterId : Option Nat := none
  recurrenceSeriesId : Option Nat := none
  recurrenceIndex : Option Nat := none
  services : List HydratedLine := []
  idempotencyKey : String

/-- What the services read besides the tables they write. -/
structure CreateEnv where
  /-- `uuidv5` of a seed. -/
  uuid : PlanUuid → Nat
  plan : PlanEnv
  loadSpace : Nat → Option TargetSpace
  resolve : Nat → RoomOutcome
  snapshotBuffers : Nat → Nat × Nat
  computeCost : Nat → Option Int
  policySnapshot : List RoomOutcome → String
  /-- The actor may override rules, and gives a reason for it. -/
  hasOverrideRules : Bool
  hasOverrideReason : Bool
  /-- The workflow service is there. -/
  workflowService : Bool
  valid : BookingInput → AttachPlan → Bool

section

variable (env : CreateEnv) (input : CreateInput)

def createBookingId : Nat := env.uuid (.booking input.idempotencyKey)

def servicesPlan (locationId : Nat) : Except CreateError AttachPlan :=
  match buildAttachPlan env.plan
    { bookingId := createBookingId env input
      requesterPersonId := input.requesterPersonId
      locationId := locationId
      startAt := input.startAt
      endAt := input.endAt
      costCenterId := input.costCenterId
      services := input.services
      idempotencyKey := input.idempotencyKey } with
  | .error e => .error (.plan e)
  | .ok plan => .ok plan

/-- A plan without services, with the approval rows given. -/
def planOfApprovals (approvals : List AttachPlanApproval) : AttachPlan where
  anyPendingApproval := !approvals.isEmpty
  anyDeny := false
  denyMessages := []
  orders := []
  assetReservations := []
  orderLineItems := []
  approvals := approvals

def flatApproval (threshold : ChainThreshold) (approver : Approver) : AttachPlanApproval where
  id := .approval input.idempotencyKey approver.id
  targetEntityId := createBookingId env input
  approverPersonId := if approver.type = .person then some approver.id else none
  approverTeamId := if approver.type = .team then some approver.id else none
  approvalChainId := some (.approvalChain input.idempotencyKey)
  parallelGroup :=
    if threshold = .all then some (parallelMarker (createBookingId env input)) else none
  chainThreshold := threshold
  scopeBreakdown := {}

/-- The plan of a booking without services: the rows of its room rule, unless a workflow has them. -/
def flatPlan (outcome : RoomOutcome) : AttachPlan :=
  match outcome.final, outcome.approvalConfig, outcome.approvalWorkflowDefinitionId with
  | .requireApproval, some config, none =>
      planOfApprovals ((canonicalApproverSort config.requiredApprovers).map
        (flatApproval env input (config.threshold.getD .all)))
  | _, _, _ => planOfApprovals []

def statusOfOutcomes (outcomes : List RoomOutcome) : BookingStatus :=
  if outcomes.any fun o => o.final == .requireApproval then .pendingApproval else .confirmed

def denyGate (outcome : RoomOutcome) : Option CreateError :=
  if outcome.final ≠ .deny then none
  else if !(env.hasOverrideRules && outcome.overridable) then some .ruleDeny
  else if !env.hasOverrideReason then some .overrideReasonRequired
  else none

/-- The slots, one for each room in order. -/
def slotsOf (spaceIds : List Nat) : List AttachPlanBookingSlot :=
  spaceIds.zipIdx.map fun p =>
    { id := env.uuid (.slot input.idempotencyKey p.2)
      spaceId := p.1
      startAt := input.startAt
      endAt := input.endAt
      setupBufferMinutes := (env.snapshotBuffers p.1).1
      teardownBufferMinutes := (env.snapshotBuffers p.1).2
      attendeeCount := input.attendeeCount
      attendeePersonIds := input.attendeePersonIds
      checkInRequired := ((env.loadSpace p.1).map TargetSpace.checkInRequired).getD false
      checkInGraceMinutes := ((env.loadSpace p.1).map TargetSpace.checkInGraceMinutes).getD 15 }

def bookingInputOf (spaceIds : List Nat) (locationId : Nat) (cost : Option Int) : BookingInput :=
  let outcomes := spaceIds.map env.resolve
  { bookingId := createBookingId env input
    requesterPersonId := input.requesterPersonId
    hostPersonId := input.hostPersonId
    locationId := locationId
    startAt := input.startAt
    endAt := input.endAt
    status := statusOfOutcomes outcomes
    costCenterId := input.costCenterId
    costAmountSnapshot := cost
    policySnapshot := env.policySnapshot outcomes
    appliedRuleIds := (outcomes.flatMap fun o => o.matchedRules.map MatchedRule.id).eraseDups
    recurrenceSeriesId := input.recurrenceSeriesId
    recurrenceIndex := input.recurrenceIndex
    slots := slotsOf env input spaceIds }

/-- What a service hands to the transaction and to the step after it. -/
structure CreatePlan where
  bookingInput : BookingInput
  attachPlan : AttachPlan
  approvalConfig : Option ApprovalConfig
  workflowDefinitionId : Option Nat

/-- The first room that cannot be booked. -/
def spaceError (spaceIds : List Nat) : Option CreateError :=
  spaceIds.findSome? fun spaceId =>
    if (env.loadSpace spaceId).isNone then some (.spaceNotFound spaceId)
    else denyGate env (env.resolve spaceId)

/-- `BookingFlowService.buildAttachPlan`, for one room. -/
def createPlan (spaceId : Nat) : Except CreateError CreatePlan :=
  if input.endAt ≤ input.startAt then .error .invalidInput
  else match spaceError env [spaceId] with
  | some e => .error e
  | none =>
      let outcome := env.resolve spaceId
      match (if input.services.isEmpty then .ok (flatPlan env input outcome)
        else servicesPlan env input spaceId) with
      | .error e => .error e
      | .ok plan => .ok
          { bookingInput :=
              { bookingInputOf env input [spaceId] spaceId (env.computeCost spaceId) with
                appliedRuleIds := (outcome.matchedRules.map MatchedRule.id).insertionSort (· ≤ ·) }
            attachPlan := plan
            approvalConfig := outcome.approvalConfig
            workflowDefinitionId := outcome.approvalWorkflowDefinitionId }

/-- The rank of a rule: the more specific first, then the higher priority. -/
def betterRule (new best : MatchedRule) : Bool :=
  decide (new.specificity < best.specificity) ||
    new.specificity == best.specificity && decide (best.priority < new.priority)

def roomRank (outcome : RoomOutcome) : Option MatchedRule :=
  (outcome.matchedRules.filter MatchedRule.requiresApproval).foldl (fun best rule =>
    match best with
    | none => some rule
    | some b => if betterRule rule b then some rule else some b) none

/-- The rank of a room is better than that of another; without a rule the rank is the worst. -/
def betterRank : Option MatchedRule → Option MatchedRule → Bool
  | some new, some best => betterRule new best
  | some _, none => true
  | none, _ => false

def winnerStep (winner : Option RoomOutcome) (outcome : RoomOutcome) : Option RoomOutcome :=
  if outcome.final ≠ .requireApproval then winner
  else match winner with
    | none => some outcome
    | some best => if betterRank (roomRank outcome) (roomRank best) then some outcome else some best

/-- The outcome whose approval the rooms together ask for. -/
def winningOutcome (outcomes : List RoomOutcome) : Option RoomOutcome :=
  outcomes.foldl winnerStep none

/-- The plan of `createGroup`. -/
def groupPlan : Except CreateError CreatePlan :=
  let spaceIds := input.spaceIds.eraseDups
  if spaceIds.length < 2 then .error .multiRoomRequiresTwo
  else if 10 < spaceIds.length then .error .multiRoomTooMany
  else match spaceError env spaceIds with
    | some e => .error e
    | none =>
        let locationId := spaceIds.headD 0
        let winner := winningOutcome (spaceIds.map env.resolve)
        match (if input.services.isEmpty then .ok (planOfApprovals [])
          else servicesPlan env input locationId) with
        | .error e => .error e
        | .ok plan => .ok
            { bookingInput := bookingInputOf env input spaceIds locationId none
              attachPlan := plan
              approvalConfig := winner.bind (·.approvalConfig)
              workflowDefinitionId := winner.bind (·.approvalWorkflowDefinitionId) }

end

/-! ## Calls -/

inductive CreateService where
  | bookingFlow (spaceId : Nat)
  | multiRoom
  deriving DecidableEq, Repr

def planFor (env : CreateEnv) (input : CreateInput) : CreateService → Except CreateError CreatePlan
  | .bookingFlow spaceId => createPlan env input spaceId
  | .multiRoom => groupPlan env input

/-- One call, which may be cut off once its transaction has committed. -/
structure Attempt where
  draws : Draws
  interrupted : Bool := false

/-- A workflow asks the approvers of the rule. -/
def takenOver (env : CreateEnv) (plan : CreatePlan) : Bool :=
  env.workflowService && plan.workflowDefinitionId.isSome

/-- `ensureRoomApprovalFanout`. A workflow writes no approval row here. -/
def ensureRoomApprovalFanout (env : CreateEnv) (plan : CreatePlan) (draws : Draws)
    (store : CreateStore) : Except CreateError CreateStore :=
  match plan.approvalConfig with
  | none => .ok store
  | some config =>
      if takenOver env plan then .ok store
      else match createApprovalRows store.db.approvals draws plan.bookingInput.bookingId config with
        | .error e => .error e
        | .ok approvals => .ok { store with db := { store.db with approvals := approvals } }

/-- One call: the store it leaves, and whether it returns. -/
def attempt (env : CreateEnv) (key : String) (plan : CreatePlan) (store : CreateStore) (a : Attempt) :
    CreateStore × Bool :=
  match createBookingWithAttachPlan env.uuid env.valid store plan.bookingInput plan.attachPlan key
      a.draws.now with
  | .error _ => (store, false)
  | .ok (committed, _) =>
      if a.interrupted then (committed, false)
      else match ensureRoomApprovalFanout env plan a.draws committed with
        | .error _ => (committed, false)
        | .ok final => (final, true)

end Prequest.Booking
