import Prequest.Booking.ConflictGuard

/-!
# The plan of an edit, from the tables

An edit carries the rows that hang on the booking along: asset reservations,
orders and work orders move with the start of the slot, and orders delivered to
its old room are delivered to the new one. The rows do not say which slot they
belong to, so an edit of one slot of many is refused when there are any.
-/

namespace Prequest.Booking

open Prequest.Lib Prequest.Approval

/-! ## Rows that move along -/

/-- A slot before and after the edit. -/
structure SlotMove where
  oldSpaceId : Nat
  oldStartAt : Int
  oldEndAt : Int
  newSpaceId : Nat
  newStartAt : Int
  newEndAt : Int
  deriving DecidableEq, Repr, Inhabited

namespace SlotMove

variable (m : SlotMove)

def startDelta : Int := m.newStartAt - m.oldStartAt

/-- A window that is that of the slot stays that of the slot; another one keeps its length. -/
def shiftWindow (startAt endAt : Int) : Int × Int :=
  if startAt = m.oldStartAt ∧ endAt = m.oldEndAt then (m.newStartAt, m.newEndAt)
  else (startAt + m.startDelta, endAt + m.startDelta)

def assetPatch (r : AssetReservationRow) : EditPlanAssetReservationPatch where
  id := r.id
  startAt := (m.shiftWindow r.startAt r.endAt).1
  endAt := (m.shiftWindow r.startAt r.endAt).2

/-- The requested times after the move; one without the other moves with the start. -/
def orderTimes (o : OrderRow) : Option Int × Option Int :=
  match o.requestedForStartAt, o.requestedForEndAt with
  | some startAt, some endAt =>
      (some (m.shiftWindow startAt endAt).1, some (m.shiftWindow startAt endAt).2)
  | startAt, endAt => (startAt.map (· + m.startDelta), endAt.map (· + m.startDelta))

def repoints (o : OrderRow) : Bool :=
  m.oldSpaceId != m.newSpaceId && o.deliveryLocationId == some m.oldSpaceId

def orderPatch (o : OrderRow) : EditPlanOrderPatch where
  id := o.id
  deliveryLocationId := if m.repoints o then some (some m.newSpaceId) else none
  requestedForStartAt := (m.orderTimes o).1.map some
  requestedForEndAt := (m.orderTimes o).2.map some

def workOrderPatch (w : WorkOrderRow) : Option EditPlanWorkOrderSlaPatch :=
  w.plannedStartAt.map fun plannedStartAt =>
    { id := w.id
      plannedStartAt := plannedStartAt + m.startDelta
      needsRepoint := true
      slaPolicyId := w.slaId }

end SlotMove

def liveAsset (bookingId : Nat) (r : AssetReservationRow) : Bool :=
  r.bookingId == some bookingId &&
    match r.status with
    | .cancelled | .released => false
    | .confirmed => true

def liveOrder (bookingId : Nat) (o : OrderRow) : Bool :=
  o.bookingId == some bookingId &&
    match o.status with
    | .cancelled | .fulfilled => false
    | _ => true

def liveWorkOrder (bookingId : Nat) (w : WorkOrderRow) : Bool :=
  w.bookingId == some bookingId &&
    match w.statusCategory with
    | .resolved | .closed => false
    | _ => true

def buildLinkedRowPatches (db : BookingDb) (bookingId : Nat) (m : SlotMove) : LinkedRowPatches where
  assetReservationPatches :=
    ((db.assetReservations.rows.filter (liveAsset bookingId)).map m.assetPatch).insertionSort
      (·.id ≤ ·.id)
  orderPatches :=
    ((db.orders.rows.filter (liveOrder bookingId)).map m.orderPatch).insertionSort (·.id ≤ ·.id)
  workOrderSlaPatches :=
    ((db.workOrders.rows.filter (liveWorkOrder bookingId)).filterMap m.workOrderPatch).insertionSort
      (·.id ≤ ·.id)

def needsBookingScope (db : BookingDb) (bookingId : Nat) : Bool :=
  decide (1 < db.slots.rows.countP fun s => s.bookingId == bookingId) &&
    (db.assetReservations.rows.any (liveAsset bookingId) ||
      db.orders.rows.any (liveOrder bookingId) || db.workOrders.rows.any (liveWorkOrder bookingId))

/-! ## The planner -/

/-- What the planner reads of the tenant and not of its bookings: rooms, rules and prices. -/
structure EditPlanEnv where
  loadSpace : Nat → Option TargetSpace
  /-- The rules for a requester, a room, a window and a number of attendees, as of a time. -/
  resolve : Nat → Nat → Int → Int → Option Nat → Int → ResolveOutcome
  computeCost : Nat → Int → Int → Option Int
  policySnapshot : TargetSpace → ResolveOutcome → Nat × Nat → String

namespace EditPlanEnv

variable (env : EditPlanEnv)

def space (spaceId : Nat) : TargetSpace := (env.loadSpace spaceId).getD {}

def snapshotBuffers (db : BookingDb) (requesterPersonId slotId spaceId : Nat) (startAt endAt : Int) :
    Nat × Nat :=
  snapshotBuffersForBooking db spaceId requesterPersonId startAt endAt (env.space spaceId) [slotId]

end EditPlanEnv

def EditPatch.move (patch : EditPatch) (slot : SlotRow) : SlotMove where
  oldSpaceId := slot.spaceId
  oldStartAt := slot.startAt
  oldEndAt := slot.endAt
  newSpaceId := patch.spaceId.getD slot.spaceId
  newStartAt := patch.startAt.getD slot.startAt
  newEndAt := patch.endAt.getD slot.endAt

/-- What the planner reads for one slot, at one state of the tables. -/
def EditPlanEnv.reads (env : EditPlanEnv) (db : BookingDb) (booking : BookingRow) (slot : SlotRow)
    (patch : EditPatch) (resolutionAt : Int) : EditPlanReads :=
  let m := patch.move slot
  { loadSpace := env.loadSpace
    resolve := fun spaceId startAt endAt attendeeCount =>
      env.resolve booking.requesterPersonId spaceId startAt endAt attendeeCount resolutionAt
    snapshotBuffers := env.snapshotBuffers db booking.requesterPersonId slot.id
    computeCost := env.computeCost
    policySnapshot := fun outcome => env.policySnapshot (env.space m.newSpaceId) outcome
      (env.snapshotBuffers db booking.requesterPersonId slot.id m.newSpaceId m.newStartAt m.newEndAt)
    linkedRows := fun _ => buildLinkedRowPatches db booking.id m }

/-- `linked_row_mode`. -/
inductive LinkedRowMode where
  | singleSlot
  | uniformBooking
  deriving DecidableEq, Repr

inductive SlotPlanError where
  | plan (e : EditPlanError)
  | linkedRowsRequireBookingScope
  deriving DecidableEq, Repr

def buildSingleSlotPlan (env : EditPlanEnv) (db : BookingDb) (bookingId slotId : Nat) (patch : EditPatch)
    (resolutionAt : Int) (mode : LinkedRowMode) : Except SlotPlanError EditPlan :=
  match db.bookings.get? bookingId with
  | none => .error (.plan .bookingNotFound)
  | some booking =>
      match db.slots.get? slotId with
      | none => .error (.plan .slotNotFound)
      | some slot =>
          match assembleEditPlan (env.reads db booking slot patch resolutionAt) db bookingId slotId
              patch resolutionAt with
          | .error e => .error (.plan e)
          | .ok plan =>
              if mode = .singleSlot ∧ needsBookingScope db bookingId = true then
                .error .linkedRowsRequireBookingScope
              else .ok plan

end Prequest.Booking
