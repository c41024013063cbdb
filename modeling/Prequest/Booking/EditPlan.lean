import Mathlib.Data.List.Sort
import Prequest.Booking.Db

/-!
# The plan of an edit

An edit of a booking is planned before the transaction that applies it: the
planner reads the booking, its slot, the rules for the new room and time, and the
approval chain that the booking has now. The plan says what the rows become and
whether the rules asked for an approval before and ask for one after.

The rules, the buffers, the cost and the patches of linked rows are read through
`EditPlanReads`.
-/

namespace Prequest.Booking

open Prequest.Lib Prequest.Approval

/-! ## Approvers -/

inductive ApproverType where
  | person
  | team
  deriving DecidableEq, Repr

structure Approver where
  type : ApproverType
  id : Nat
  deriving DecidableEq, Repr

/-- The approval a rule asks for. -/
structure ApprovalConfig where
  requiredApprovers : List Approver
  threshold : Option ChainThreshold := none
  deriving DecidableEq, Repr

def ApproverType.rank : ApproverType → Nat
  | .person => 0
  | .team => 1

/-- `(type, id)` in order. -/
def beforeApprover (a b : Approver) : Prop :=
  a.type.rank < b.type.rank ∨ a.type = b.type ∧ a.id ≤ b.id

instance (a b : Approver) : Decidable (beforeApprover a b) := by
  unfold beforeApprover
  infer_instance

def canonicalApproverSort (approvers : List Approver) : List Approver :=
  approvers.insertionSort beforeApprover

def chainConfigsEqual : Option ApprovalConfig → Option ApprovalConfig → Bool
  | none, none => true
  | some a, some b =>
      a.threshold.getD .all == b.threshold.getD .all &&
        canonicalApproverSort a.requiredApprovers == canonicalApproverSort b.requiredApprovers
  | _, _ => false

/-! ## The plan -/

inductive RuleOutcome where
  | allow
  | requireApproval
  | deny
  deriving DecidableEq, Repr

structure EditPlanApprovalChainConfig where
  requiredApprovers : List Approver
  threshold : ChainThreshold
  deriving DecidableEq, Repr

structure EditPlanApproval where
  oldOutcome : RuleOutcome
  newOutcome : RuleOutcome
  chainConfigChanged : Bool
  newChainConfig : Option EditPlanApprovalChainConfig
  deriving DecidableEq, Repr

/-- The patch of the booking. In an optional field `none` keeps the column; `some none` clears it. -/
structure EditPlanBookingPatch where
  locationId : Nat
  startAt : Int
  endAt : Int
  costAmountSnapshot : Option Int
  policySnapshot : Option String := none
  appliedRuleIds : Option (List Nat) := none
  costCenterId : Option (Option Nat) := none
  calendarEtag : Option (Option String) := none
  hostPersonId : Option (Option Nat) := none
  recurrenceOverridden : Option Bool := none
  configReleaseId : Option (Option Nat) := none
  deriving DecidableEq, Repr

structure EditPlanSlotPatch where
  slotId : Nat
  spaceId : Nat
  startAt : Int
  endAt : Int
  setupBufferMinutes : Option Nat := none
  teardownBufferMinutes : Option Nat := none
  attendeeCount : Option (Option Nat) := none
  attendeePersonIds : Option (List Nat) := none
  deriving DecidableEq, Repr

structure EditPlanAssetReservationPatch where
  id : Nat
  startAt : Int
  endAt : Int
  deriving DecidableEq, Repr

structure EditPlanOrderPatch where
  id : Nat
  deliveryLocationId : Option (Option Nat) := none
  requestedForStartAt : Option (Option Int) := none
  requestedForEndAt : Option (Option Int) := none
  deriving DecidableEq, Repr

structure EditPlanWorkOrderSlaPatch where
  id : Nat
  plannedStartAt : Int
  slaDueAt : Option (Option Int) := none
  needsRepoint : Bool := false
  slaPolicyId : Option Nat := none
  deriving DecidableEq, Repr

structure EditPlan where
  booking : EditPlanBookingPatch
  slotPatches : List EditPlanSlotPatch
  assetReservationPatches : List EditPlanAssetReservationPatch := []
  orderPatches : List EditPlanOrderPatch := []
  workOrderSlaPatches : List EditPlanWorkOrderSlaPatch := []
  resolutionAt : Int
  approval : EditPlanApproval
  deriving DecidableEq, Repr

/-! ## The chain the booking has now -/

def isLive (r : ApprovalRow) : Bool :=
  r.status == .pending || r.status == .delegated || r.status == .approved

def aboutBooking (bookingId : Nat) (r : ApprovalRow) : Bool :=
  r.targetEntityType == .booking && r.targetEntityId == bookingId

/-- The row was asked for a service: it says for which entities. A row of the room rule does not. -/
def fromServices (r : ApprovalRow) : Bool := r.scopeBreakdown != {}

/-- The newest row first; of two rows of one moment, the greater chain first and a row without a
chain last. -/
def newerRow (a b : ApprovalRow) : Prop :=
  b.createdAt < a.createdAt ∨
    a.createdAt = b.createdAt ∧
      (b.approvalChainId.map (· + 1)).getD 0 ≤ (a.approvalChainId.map (· + 1)).getD 0

instance (a b : ApprovalRow) : Decidable (newerRow a b) := by
  unfold newerRow
  infer_instance

def bucketsOf (rows : List ApprovalRow) : List (List ApprovalRow) :=
  (rows.map ApprovalRow.approvalChainId).eraseDups.map fun chainId =>
    rows.filter fun r => r.approvalChainId == chainId

def maxCreatedAt (rows : List ApprovalRow) : Nat :=
  rows.foldl (fun m r => max m r.createdAt) 0

def newestBucket (buckets : List (List ApprovalRow)) : List ApprovalRow :=
  (buckets.foldl (fun (newest : Option (List ApprovalRow)) bucket =>
    match newest with
    | none => some bucket
    | some best => if maxCreatedAt best < maxCreatedAt bucket then some bucket else some best)
    none).getD []

/-- Whom a row was asked of. -/
def approverOf (r : ApprovalRow) : Option Approver :=
  match r.approverPersonId, r.approverTeamId with
  | some id, _ => some ⟨.person, id⟩
  | none, some id => some ⟨.team, id⟩
  | none, none => none

/-- `'parallel-' || booking_id`. -/
def parallelMarker (bookingId : Nat) : String := "parallel-" ++ toString bookingId

def loadCurrentApprovalChain (approvals : Table ApprovalRow) (bookingId : Nat) :
    Option ApprovalConfig :=
  let rows := (approvals.rows.filter fun r =>
    aboutBooking bookingId r && isLive r).insertionSort newerRow
  let chainRows := newestBucket (bucketsOf rows)
  let requiredApprovers := chainRows.filterMap approverOf
  if requiredApprovers.isEmpty then none
  else some
    { requiredApprovers := requiredApprovers
      threshold := some (
        if chainRows.any fun r => r.parallelGroup == some (parallelMarker bookingId) then .all
        else .any) }

/-! ## Assembling -/

/-- What the room rules say about a room and a time. -/
structure ResolveOutcome where
  final : RuleOutcome
  approvalConfig : Option ApprovalConfig
  matchedRuleIds : List Nat := []
  deriving DecidableEq, Repr

def shapeChainConfigForPlan (config : Option ApprovalConfig) : Option EditPlanApprovalChainConfig :=
  match config with
  | none => none
  | some config =>
      if config.requiredApprovers.isEmpty then none
      else some
        { requiredApprovers := canonicalApproverSort config.requiredApprovers
          threshold := config.threshold.getD .all }

/-- Steps 8 and 9: the outcome before is `require_approval` exactly when the booking has a chain. -/
def approvalBlock (currentChain : Option ApprovalConfig) (newOutcome : ResolveOutcome) :
    EditPlanApproval where
  oldOutcome := if currentChain.isNone then .allow else .requireApproval
  newOutcome := newOutcome.final
  chainConfigChanged := !chainConfigsEqual currentChain newOutcome.approvalConfig
  newChainConfig := shapeChainConfigForPlan newOutcome.approvalConfig

structure TargetSpace where
  setupBufferMinutes : Nat := 0
  teardownBufferMinutes : Nat := 0
  checkInRequired : Bool := false
  checkInGraceMinutes : Nat := 15
  deriving DecidableEq, Repr

/-- The rows that follow the booking to its new time and room. -/
structure LinkedRowPatches where
  assetReservationPatches : List EditPlanAssetReservationPatch := []
  orderPatches : List EditPlanOrderPatch := []
  workOrderSlaPatches : List EditPlanWorkOrderSlaPatch := []
  deriving DecidableEq, Repr

/-- The caller's changes to one slot. -/
structure EditPatch where
  spaceId : Option Nat := none
  startAt : Option Int := none
  endAt : Option Int := none
  attendeeCount : Option (Option Nat) := none
  attendeePersonIds : Option (List Nat) := none
  hostPersonId : Option (Option Nat) := none
  autoSetRecurrenceOverridden : Bool := false
  /-- A time is sent in another notation than the tables have it, so that it never equals theirs. -/
  restated : Bool := false
  deriving DecidableEq, Repr

structure EditPlanReads where
  /-- A room that is active and can be reserved. -/
  loadSpace : Nat → Option TargetSpace
  /-- The rules for a room, a time and a number of attendees. -/
  resolve : Nat → Int → Int → Option Nat → ResolveOutcome
  /-- The setup and teardown buffers of a slot in a room at a time. -/
  snapshotBuffers : Nat → Int → Int → Nat × Nat
  computeCost : Nat → Int → Int → Option Int
  policySnapshot : ResolveOutcome → String
  linkedRows : EditPatch → LinkedRowPatches

inductive EditPlanError where
  | bookingNotFound
  | slotNotFound
  | spaceNotFound
  | ruleMissingApprovers
  deriving DecidableEq, Repr

/-- The rule asks for an approval and names nobody. -/
def ResolveOutcome.missingApprovers (outcome : ResolveOutcome) : Bool :=
  outcome.final == .requireApproval &&
    match outcome.approvalConfig with
    | none => true
    | some config => config.requiredApprovers.isEmpty

def EditPatch.overridesSeries (patch : EditPatch) (booking : BookingRow) (slot : SlotRow) : Bool :=
  patch.autoSetRecurrenceOverridden && booking.recurrenceSeriesId.isSome &&
    (patch.spaceId.any (· ≠ slot.spaceId) || patch.startAt.any (· ≠ slot.startAt) ||
      patch.endAt.any (· ≠ slot.endAt) || patch.restated || patch.attendeeCount.isSome ||
      patch.attendeePersonIds.isSome || patch.hostPersonId.isSome)

/-- `buildSingleSlotPlan`, on one snapshot of the tables. -/
def assembleEditPlan (reads : EditPlanReads) (db : BookingDb) (bookingId slotId : Nat)
    (patch : EditPatch) (resolutionAt : Int) : Except EditPlanError EditPlan :=
  match db.bookings.get? bookingId with
  | none => .error .bookingNotFound
  | some booking =>
      match db.slots.get? slotId with
      | none => .error .slotNotFound
      | some slot =>
          if slot.bookingId ≠ bookingId then .error .slotNotFound
          else
            let spaceId := patch.spaceId.getD slot.spaceId
            let startAt := patch.startAt.getD slot.startAt
            let endAt := patch.endAt.getD slot.endAt
            let attendeeCount := patch.attendeeCount.getD slot.attendeeCount
            match reads.loadSpace spaceId with
            | none => .error .spaceNotFound
            | some _ =>
                let newOutcome := reads.resolve spaceId startAt endAt attendeeCount
                if newOutcome.missingApprovers then .error .ruleMissingApprovers
                else
                  let buffers := reads.snapshotBuffers spaceId startAt endAt
                  let linked := reads.linkedRows patch
                  .ok
                    { booking :=
                        { locationId := spaceId
                          startAt := startAt
                          endAt := endAt
                          costAmountSnapshot := reads.computeCost spaceId startAt endAt
                          policySnapshot := some (reads.policySnapshot newOutcome)
                          appliedRuleIds := some (newOutcome.matchedRuleIds.insertionSort (· ≤ ·))
                          hostPersonId := patch.hostPersonId
                          recurrenceOverridden :=
                            if patch.overridesSeries booking slot then some true else none }
                      slotPatches :=
                        [{ slotId := slotId
                           spaceId := spaceId
                           startAt := startAt
                           endAt := endAt
                           setupBufferMinutes := some buffers.1
                           teardownBufferMinutes := some buffers.2
                           attendeeCount := some attendeeCount
                           attendeePersonIds :=
                             some (patch.attendeePersonIds.getD slot.attendeePersonIds) }]
                      assetReservationPatches := linked.assetReservationPatches
                      orderPatches := linked.orderPatches
                      workOrderSlaPatches := linked.workOrderSlaPatches
                      resolutionAt := resolutionAt
                      approval := approvalBlock
                        (loadCurrentApprovalChain db.approvals bookingId) newOutcome }

end Prequest.Booking
