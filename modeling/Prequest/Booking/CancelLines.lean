import Prequest.Booking.CancelScope

/-!
# Cancelling order lines

`cancel_order_lines_with_cascade` cancels the named lines of a booking, or all of
them, with their work orders, their asset reservations and the orders that have no
other line left. The pending approvals of the booking lose the cancelled entities
from their scope and expire when nothing is left of it; when all lines go, all
pending approvals of the booking expire, and the booking is closed if no line is
kept.

* `cancelOrderLines_cases`: what a call leaves.
-/

namespace Prequest.Booking

open Prequest.Lib Prequest.Outbox Prequest.Approval Prequest.Command

/-- The arguments of a call, with the time of its transaction. No `lineIds` means all lines. -/
structure CancelLinesCall where
  bookingId : Nat
  lineIds : Option (List Nat)
  keepLineIds : List Nat := []
  actorUserId : Option Nat := none
  reason : Option String := none
  idempotencyKey : String
  now : Nat
  env : CommandEnv

/-- The exceptions of the function. -/
inductive CancelLinesError where
  | idempotencyKeyRequired
  | invalidArgs
  | actorNotFound (authUid : Nat)
  | gate (e : GateError)
  | bookingNotFound (bookingId : Nat)
  | lineNotFound (lineId : Nat)
  | lineNotInBundle (lineId bookingId : Nat)
  | lineAlreadyFulfilled (lineId : Nat)
  | emit (e : EmitError)
  deriving DecidableEq, Repr

/-! ## The entities of a call -/

section

variable (call : CancelLinesCall) (db : BookingDb)

def CancelLinesCall.isAbout (l : OrderLineItem) : Bool :=
  match call.lineIds with
  | none => true
  | some ids => ids.contains l.id

/-- A line that the call cancels. A line that is cancelled already is one of these. -/
def CancelLinesCall.takes (l : OrderLineItem) : Bool :=
  hasOrder db call.bookingId l.orderId && call.isAbout l && l.isFree &&
    !call.keepLineIds.contains l.id

def CancelLinesCall.freesAsset (r : AssetReservationRow) : Bool :=
  r.status == .confirmed &&
    db.orderLineItems.rows.any fun l =>
      call.takes db l && l.linkedAssetReservationId == some r.id

def CancelLinesCall.closesTicket (w : WorkOrderRow) : Bool :=
  (db.orderLineItems.rows.any fun l =>
      call.takes db l && w.linkedOrderLineItemId == some l.id) &&
    match w.statusCategory with
    | .resolved | .closed => false
    | _ => true

def CancelLinesCall.linesAfter : Table OrderLineItem :=
  db.orderLineItems.update (call.takes db) cancelLine

/-- `v_oli_cancelled_order_ids`. -/
def CancelLinesCall.touchedOrderIds : List Nat :=
  ((db.orderLineItems.rows.filter (call.takes db)).map OrderLineItem.orderId).eraseDups

def CancelLinesCall.emptiesOrder (o : OrderRow) : Bool :=
  orderOf call.bookingId o && (call.touchedOrderIds db).contains o.id && o.status != .cancelled &&
    o.status != .fulfilled && ((call.linesAfter db).rows.any fun l => l.orderId == o.id) &&
    (call.linesAfter db).rows.all fun l =>
      l.orderId != o.id || l.fulfillmentStatus == .cancelled

/-- `v_cancellable_ids`. The lines of a call that names them are aggregated `distinct`, which sorts. -/
def CancelLinesCall.cancellableIds : List Nat :=
  let ids := (db.orderLineItems.rows.filter (call.takes db)).map OrderLineItem.id
  if call.lineIds.isSome then ids.insertionSort (· ≤ ·) else ids

/-- `v_cascaded_ticket_ids`. -/
def CancelLinesCall.ticketIds : List Nat :=
  (db.workOrders.rows.filter (call.closesTicket db)).map WorkOrderRow.id

/-- `v_cascaded_ar_ids`. -/
def CancelLinesCall.assetReservationIds : List Nat :=
  (db.assetReservations.rows.filter (call.freesAsset db)).map AssetReservationRow.id

def CancelLinesCall.protects (l : OrderLineItem) : Bool :=
  hasOrder db call.bookingId l.orderId && !l.isFree

/-- `v_fulfilled_line_ids`, which a call that names its lines leaves empty. -/
def CancelLinesCall.fulfilledLineIds : List Nat :=
  if call.lineIds.isSome then []
  else (db.orderLineItems.rows.filter (call.protects db)).map OrderLineItem.id

/-- The lines all go and none is kept or protected. The booking's own state is not looked at. -/
def CancelLinesCall.closesBooking : Bool :=
  call.lineIds.isNone && (call.fulfilledLineIds db).isEmpty && call.keepLineIds.isEmpty

def CancelLinesCall.pendingOn (r : ApprovalRow) : Bool :=
  r.targetEntityId == call.bookingId && r.status == .pending

end

/-! ## The scope of an approval -/

def narrowed (lineIds ticketIds assetReservationIds : List Nat) (s : ScopeBreakdown) :
    ScopeBreakdown :=
  { s with
    orderLineItemIds := s.orderLineItemIds.filter fun id => !lineIds.contains id
    ticketIds := s.ticketIds.filter fun id => !ticketIds.contains id
    assetReservationIds := s.assetReservationIds.filter fun id => !assetReservationIds.contains id }

end Prequest.Booking

namespace Prequest.Approval

/-- `v_still_covers`: one of the five lists of ids is not empty. -/
def ScopeBreakdown.covers (s : ScopeBreakdown) : Bool :=
  !s.reservationIds.isEmpty || !s.orderIds.isEmpty || !s.orderLineItemIds.isEmpty ||
    !s.ticketIds.isEmpty || !s.assetReservationIds.isEmpty

end Prequest.Approval

namespace Prequest.Booking

open Prequest.Lib Prequest.Outbox Prequest.Approval Prequest.Command

section

variable (call : CancelLinesCall) (db : BookingDb)

/-- `v_new_scope`. -/
def CancelLinesCall.newScope (s : ScopeBreakdown) : ScopeBreakdown :=
  narrowed (call.cancellableIds db) (call.ticketIds db) (call.assetReservationIds db) s

/-- One turn of the loop over the pending approvals. -/
def rescope : Table.Assignment ApprovalRow :=
  ⟨fun r =>
      if (call.newScope db r.scopeBreakdown).covers then
        { r with scopeBreakdown := call.newScope db r.scopeBreakdown }
      else (expire call.now "Auto-closed after scope drop").apply r,
    fun r => by
      show (if _ then _ else _ : ApprovalRow).id = r.id
      split <;> rfl⟩

def CancelLinesCall.approvalsAfter : Table ApprovalRow :=
  db.approvals.update call.pendingOn
    (if call.lineIds.isSome then rescope call db
      else expire call.now "Bundle cancelled; voiding approval")

def CancelLinesCall.rescopedApprovalIds : List Nat :=
  if call.lineIds.isSome then
    (db.approvals.rows.filter fun r =>
      call.pendingOn r && (call.newScope db r.scopeBreakdown).covers).map ApprovalRow.id
  else []

def CancelLinesCall.expiredApprovalIds : List Nat :=
  if call.lineIds.isSome then
    (db.approvals.rows.filter fun r =>
      call.pendingOn r && !(call.newScope db r.scopeBreakdown).covers).map ApprovalRow.id
  else (db.approvals.rows.filter call.pendingOn).map ApprovalRow.id

/-! ## The function -/

def checkLine (lineId : Nat) : Except CancelLinesError Unit :=
  match db.orderLineItems.get? lineId with
  | none => .error (.lineNotFound lineId)
  | some l =>
      if !hasOrder db call.bookingId l.orderId then
        .error (.lineNotInBundle lineId call.bookingId)
      else if !l.isFree then .error (.lineAlreadyFulfilled lineId)
      else .ok ()

/-- The slots that a closed booking loses. A draft is not one of them. -/
def CancelLinesCall.closesSlot (s : SlotRow) : Bool :=
  call.closesBooking db && s.bookingId == call.bookingId && s.status.blocksRoom

theorem key_cancelledAsset (r : AssetReservationRow) :
    Keyed.key { r with status := .cancelled } = Keyed.key r := rfl

theorem key_cancelledOrder (o : OrderRow) :
    Keyed.key { o with status := .cancelled } = Keyed.key o := rfl

theorem key_cancelledBooking (b : BookingRow) :
    Keyed.key { b with status := .cancelled } = Keyed.key b := rfl

/-- The writes of the cascade. -/
def cancelLinesRows : BookingDb :=
  { db with
    assetReservations := db.assetReservations.update (call.freesAsset db)
      ⟨fun r => { r with status := .cancelled }, key_cancelledAsset⟩
    workOrders := db.workOrders.update (call.closesTicket db)
      ⟨fun w => { w with statusCategory := .closed, closedAt := some call.now }, fun _ => rfl⟩
    orderLineItems := call.linesAfter db
    orders := db.orders.update (call.emptiesOrder db)
      ⟨fun o => { o with status := .cancelled }, key_cancelledOrder⟩
    approvals := call.approvalsAfter db
    slots := db.slots.update (call.closesSlot db)
      ⟨fun s => { s with status := .cancelled }, fun _ => rfl⟩
    bookings := db.bookings.update (fun b => call.closesBooking db && b.id == call.bookingId)
      ⟨fun b => { b with status := .cancelled }, key_cancelledBooking⟩
    domainEvents := db.domainEvents ++
      [{ eventType :=
          if call.lineIds.isSome then "order.line_cancelled" else "bundle.services_cancelled"
         entityType := "booking", entityId := call.bookingId }] }

/-- The event of a call for all lines. A call that names its lines emits none. -/
def cancelLinesEvents : List (Event BookingEventKey BookingEvent) :=
  if call.lineIds.isSome then []
  else [⟨.bundleServicesCancelled call.bookingId call.idempotencyKey,
    .bundleServicesCancelled call.bookingId (call.cancellableIds db) (call.closesBooking db)⟩]

/-- `v_result`. -/
def cancelLinesResult : BookingResult :=
  .linesCancelled (call.cancellableIds db) (call.ticketIds db) (call.assetReservationIds db)
    (call.rescopedApprovalIds db) (call.expiredApprovalIds db) (call.closesBooking db)
    (call.fulfilledLineIds db) call.keepLineIds

/-- The steps after the gate. -/
def cancelLinesFresh : Except CancelLinesError (BookingDb × BookingResult) :=
  match db.bookings.get? call.bookingId with
  | none => .error (.bookingNotFound call.bookingId)
  | some _ =>
      match (call.lineIds.getD []).forM (checkLine call db) with
      | .error e => .error e
      | .ok () =>
          match emitAll db.outbox (cancelLinesEvents call db) with
          | .error e => .error (.emit e)
          | .ok outbox =>
              .ok ({ cancelLinesRows call db with outbox := outbox }, cancelLinesResult call db)

end

/-- What the hash is taken of: the sorted ids, the resolved user and the caller's reason. -/
def cancelLinesPayload (call : CancelLinesCall) (actorUserId : Option Nat) : BookingPayload :=
  .cancelLines call.bookingId (call.lineIds.map (·.insertionSort (· ≤ ·)))
    (call.keepLineIds.insertionSort (· ≤ ·)) actorUserId (call.reason.getD "")

/-- `cancel_order_lines_with_cascade`. -/
def cancelOrderLinesWithCascade (store : BookingStore) (call : CancelLinesCall) :
    Except CancelLinesError (BookingStore × BookingResult) :=
  if call.idempotencyKey = "" then .error .idempotencyKeyRequired
  else if call.lineIds = some [] then .error .invalidArgs
  else match call.actorUserId with
    | none => gated none
    | some authUid =>
        match call.env.userOf authUid with
        | none => .error (.actorNotFound authUid)
        | some userId => gated (some userId)
where
  gated (actorUserId : Option Nat) : Except CancelLinesError (BookingStore × BookingResult) :=
    match gate store.operations call.idempotencyKey (cancelLinesPayload call actorUserId) with
    | .error e => .error (.gate e)
    | .ok (.cached result) => .ok (store, result)
    | .ok .proceed =>
        match cancelLinesFresh call store.db with
        | .error e => .error e
        | .ok (db, result) => .ok
            ({ store with
                db := db
                operations := finish (begin store.operations call.idempotencyKey
                  (cancelLinesPayload call actorUserId)) call.idempotencyKey result },
              result)

/-! ## What a call leaves -/

/-- The ways a call ends without raising. -/
inductive CancelLinesStep (store : BookingStore) (call : CancelLinesCall) (store' : BookingStore)
    (result : BookingResult) : Prop where
  /-- The key was used for the same call before. -/
  | cached (hused : store.operations.get? call.idempotencyKey ≠ none) (hsame : store' = store)
  /-- The cascade ran. -/
  | done (hnew : store.operations.get? call.idempotencyKey = none)
      (hresult : result = cancelLinesResult call store.db) (outbox : BookingOutbox)
      (hemit : emitAll store.db.outbox (cancelLinesEvents call store.db) = .ok outbox)
      (hdb : store'.db = { cancelLinesRows call store.db with outbox := outbox })

variable {call : CancelLinesCall} {result : BookingResult} {store store' : BookingStore}

theorem cancelLinesFresh_eq {db db' : BookingDb}
    (h : cancelLinesFresh call db = .ok (db', result)) :
    result = cancelLinesResult call db ∧
      ∃ outbox, emitAll db.outbox (cancelLinesEvents call db) = .ok outbox ∧
        db' = { cancelLinesRows call db with outbox := outbox } := by
  unfold cancelLinesFresh at h
  split at h
  · cases h
  · split at h
    · cases h
    · split at h
      · cases h
      · rename_i outbox hemit
        cases h
        exact ⟨rfl, outbox, hemit, rfl⟩

theorem cancelLinesGated_cases {actorUserId : Option Nat}
    (h : cancelOrderLinesWithCascade.gated store call actorUserId = .ok (store', result)) :
    CancelLinesStep store call store' result := by
  simp only [cancelOrderLinesWithCascade.gated] at h
  split at h
  · cases h
  · rename_i hgate
    cases h
    refine .cached ?_ rfl
    intro hnew
    rw [gate_eq_proceed.mpr hnew] at hgate
    cases hgate
  · rename_i hgate
    split at h
    · cases h
    · rename_i hfresh
      cases h
      obtain ⟨hresult, outbox, hemit, hdb⟩ := cancelLinesFresh_eq hfresh
      exact .done (gate_eq_proceed.mp hgate) hresult outbox hemit hdb

theorem cancelOrderLines_cases (h : cancelOrderLinesWithCascade store call = .ok (store', result)) :
    CancelLinesStep store call store' result := by
  unfold cancelOrderLinesWithCascade at h
  split at h
  · cases h
  split at h
  · cases h
  split at h
  · exact cancelLinesGated_cases h
  · split at h
    · cases h
    · exact cancelLinesGated_cases h

end Prequest.Booking
