import Prequest.Approval.Row
import Prequest.Outbox.Emit

/-!
# The tables behind a booking

A booking has slots (one for each room), approvals, orders with order lines,
asset reservations and work orders. The commands that grant, edit and cancel a
booking read and write these tables; `BookingDb` holds them for one tenant.

Columns that no modelled command reads are left out. Times are `timestamptz`
values in milliseconds.
-/

namespace Prequest.Booking

open Prequest.Lib Prequest.Outbox Prequest.Approval

/-- The values of `bookings.status` and `booking_slots.status`. -/
inductive BookingStatus where
  | draft
  | pendingApproval
  | confirmed
  | checkedIn
  | released
  | cancelled
  | completed
  deriving DecidableEq, Repr

/-- A slot in one of these states is finished. -/
def BookingStatus.terminal : BookingStatus → Bool
  | .cancelled | .completed | .released => true
  | _ => false

/-- The states in which `booking_slots_no_overlap` keeps a room to one slot. -/
def BookingStatus.blocksRoom : BookingStatus → Bool
  | .confirmed | .checkedIn | .pendingApproval => true
  | _ => false

/-- A row of `bookings`. -/
structure BookingRow where
  id : Nat
  requesterPersonId : Nat := 0
  status : BookingStatus
  locationId : Nat
  startAt : Int
  endAt : Int
  recurrenceSeriesId : Option Nat := none
  recurrenceIndex : Option Nat := none
  recurrenceOverridden : Bool := false
  recurrenceSkipped : Bool := false
  costAmountSnapshot : Option Int := none
  costCenterId : Option Nat := none
  hostPersonId : Option Nat := none
  calendarEtag : Option String := none
  policySnapshot : String := ""
  appliedRuleIds : List Nat := []
  configReleaseId : Option Nat := none
  updatedAt : Int := 0
  deriving DecidableEq, Repr

instance : Keyed BookingRow Nat where
  key := BookingRow.id

/-- A row of `booking_slots`. -/
structure SlotRow where
  id : Nat
  bookingId : Nat
  spaceId : Nat
  startAt : Int
  endAt : Int
  setupBufferMinutes : Nat := 0
  teardownBufferMinutes : Nat := 0
  status : BookingStatus
  cancellationGraceUntil : Option Int := none
  attendeeCount : Option Nat := none
  attendeePersonIds : List Nat := []
  checkInRequired : Bool := false
  checkInGraceMinutes : Nat := 15
  checkedInAt : Option Int := none
  releasedAt : Option Int := none
  deriving DecidableEq, Repr

instance : Keyed SlotRow Nat where
  key := SlotRow.id

/-- The values of `orders.status`. -/
inductive OrderStatus where
  | draft
  | submitted
  | approved
  | confirmed
  | fulfilled
  | cancelled
  deriving DecidableEq, Repr

/-- A row of `orders`. -/
structure OrderRow where
  id : Nat
  bookingId : Option Nat
  status : OrderStatus
  deliveryLocationId : Option Nat := none
  requestedForStartAt : Option Int := none
  requestedForEndAt : Option Int := none
  deriving DecidableEq, Repr

instance : Keyed OrderRow Nat where
  key := OrderRow.id

/-- The values of `order_line_items.fulfillment_status`. -/
inductive FulfillmentStatus where
  | ordered
  | confirmed
  | preparing
  | delivered
  | cancelled
  deriving DecidableEq, Repr

/-- A value of type `jsonb`, an object or JSON `null`. JSON `null` is a value: it is not SQL `NULL`,
which is `none` where a `jsonb` may be missing. -/
inductive Jsonb (α : Type) where
  | null
  | object (a : α)
  deriving DecidableEq, Repr

/-- The arguments of a setup work order. A field that is read of something else than an object is
`NULL`. -/
structure SetupTriggerArgs where
  serviceCategory : Option String := none
  serviceWindowStartAt : Option Int := none
  locationId : Option Nat := none
  ruleIds : Option (List Nat) := none
  leadTimeOverride : Option Int := none
  originSurface : Option String := none
  deriving DecidableEq, Repr

/-- What the operators `->` and `->>` read. -/
def Jsonb.setupArgs : Jsonb SetupTriggerArgs → SetupTriggerArgs
  | .null => {}
  | .object args => args

/-- A row of `order_line_items`. -/
structure OrderLineItem where
  id : Nat
  orderId : Nat
  fulfillmentStatus : FulfillmentStatus
  pendingSetupTriggerArgs : Option (Jsonb SetupTriggerArgs) := none
  linkedAssetReservationId : Option Nat := none
  deriving DecidableEq, Repr

instance : Keyed OrderLineItem Nat where
  key := OrderLineItem.id

/-- The values of `work_orders.status_category`. -/
inductive WorkOrderCategory where
  | new
  | assigned
  | inProgress
  | waiting
  | pendingApproval
  | resolved
  | closed
  deriving DecidableEq, Repr

/-- A row of `work_orders`. -/
structure WorkOrderRow where
  id : Nat
  bookingId : Option Nat
  linkedOrderLineItemId : Option Nat
  statusCategory : WorkOrderCategory
  closedAt : Option Int := none
  plannedStartAt : Option Int := none
  slaResolutionDueAt : Option Int := none
  slaId : Option Nat := none
  deriving DecidableEq, Repr

instance : Keyed WorkOrderRow Nat where
  key := WorkOrderRow.id

/-- The values of `asset_reservations.status`. -/
inductive AssetReservationStatus where
  | confirmed
  | cancelled
  | released
  deriving DecidableEq, Repr

/-- A row of `asset_reservations`. -/
structure AssetReservationRow where
  id : Nat
  bookingId : Option Nat
  status : AssetReservationStatus
  startAt : Int
  endAt : Int
  deriving DecidableEq, Repr

instance : Keyed AssetReservationRow Nat where
  key := AssetReservationRow.id

inductive BookingEvent where
  | approvalGranted (approvalId bookingId : Nat) (finalDecision : Decision)
      (workflowInstanceId : Nat) (workflowNodeId : Option String)
  | setupWorkOrderCreateRequired (bookingId oliId : Nat) (args : SetupTriggerArgs)
      (requiresApproval : Bool)
  | bookingCreated (bookingId locationId : Nat) (status : BookingStatus) (startedAt : Int)
  | bookingCancelled (bookingId : Nat) (reason : String) (startedAt : Int)
  | bookingCancelCascadeRequired (bookingId : Nat) (reason : String) (startedAt : Int)
  | bookingLocationChanged (bookingId previousLocation newLocation : Nat) (startedAt : Int)
  | bookingCostChanged (bookingId : Nat) (previousCost newCost : Option Int) (startedAt : Int)
  | bookingApprovalRequired (bookingId : Nat) (chainId : Nat)
      (approverPersonIds approverTeamIds : List Nat) (startedAt : Int)
  | slaTimerRepointedRequired (workOrderId : Nat) (slaPolicyId : Option Nat) (startedAt : Int)
  | bundleServicesCancelled (bookingId : Nat) (cancelledLineIds : List Nat)
      (bookingCancelled : Bool)
  deriving DecidableEq, Repr

inductive BookingEventKey where
  | approvalGranted (approvalId : Nat)
  | setupWorkOrderCreateRequired (oliId : Nat)
  | bookingCreated (bookingId : Nat) (commandKey : String)
  | bookingCancelled (bookingId : Nat)
  | bookingCancelCascadeRequired (bookingId : Nat)
  | bookingLocationChanged (bookingId : Nat) (commandKey : String)
  | bookingCostChanged (bookingId : Nat) (commandKey : String)
  | bookingApprovalRequired (bookingId : Nat) (commandKey : String)
  | slaTimerRepointedRequired (workOrderId : Nat) (commandKey : String)
  | bundleServicesCancelled (bookingId : Nat) (commandKey : String)
  deriving DecidableEq, Repr

abbrev BookingOutbox := Table (Event BookingEventKey BookingEvent)

/-- A row of `domain_events` about a booking. -/
structure BookingDomainEvent where
  eventType : String
  entityType : String
  entityId : Nat
  deriving DecidableEq, Repr

/-- The tables of one tenant that the booking commands read or write. -/
structure BookingDb where
  bookings : Table BookingRow
  slots : Table SlotRow
  approvals : Table ApprovalRow
  orders : Table OrderRow := Table.empty
  orderLineItems : Table OrderLineItem := Table.empty
  workOrders : Table WorkOrderRow := Table.empty
  assetReservations : Table AssetReservationRow := Table.empty
  domainEvents : List BookingDomainEvent := []
  outbox : BookingOutbox := Table.empty
  deriving DecidableEq

def BookingDb.status? (db : BookingDb) (bookingId : Nat) : Option BookingStatus :=
  (db.bookings.get? bookingId).map BookingRow.status

def primarySlot (db : BookingDb) (bookingId : Nat) : Option SlotRow :=
  db.slots.rows.find? fun s => s.bookingId == bookingId

end Prequest.Booking
