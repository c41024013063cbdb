import Prequest.Approval.BookingGrant
import Prequest.Booking.EditBooking

/-!
# Cancelling bookings

`cancel_booking_with_cascade` cancels one booking, the bookings of its series
from it on, or all bookings of its series, each with its slots, order lines,
orders, asset reservations, work orders and pending approvals. A wider scope than
one booking also ends the series at the booking.
-/

namespace Prequest.Booking

open Prequest.Lib Prequest.Outbox Prequest.Approval Prequest.Command Prequest.Recurrence

/-- The arguments of a call, with the time of its transaction. -/
structure CancelCall where
  bookingId : Nat
  actorUserId : Option Nat := none
  scope : Option String := none
  reason : Option String := none
  graceMinutes : Option Int := none
  idempotencyKey : String
  now : Nat
  env : CommandEnv

/-- The exceptions of the function. -/
inductive CancelError where
  | idempotencyKeyRequired
  | invalidScope
  | actorNotFound (authUid : Nat)
  | gate (e : GateError)
  | notFound (bookingId : Nat)
  | notRecurring (bookingId : Nat)
  | emit (e : EmitError)
  deriving DecidableEq, Repr

def parseScope : Option String → Option CancelScope
  | none => some .this
  | some scope =>
      if scope = "this" then some .this
      else if scope = "this_and_following" then some .thisAndFollowing
      else if scope = "series" then some .series
      else none

/-- `coalesce(p_reason, 'user_cancel')`. -/
def CancelCall.reasonText (call : CancelCall) : String := call.reason.getD "user_cancel"

/-- `cancellation_grace_until` of the slots. -/
def CancelCall.graceUntil (call : CancelCall) : Int := call.now + 60000 * call.graceMinutes.getD 5

/-! ## The bookings of a scope -/

def inCancelScope (pivot : BookingRow) (scope : CancelScope) (b : BookingRow) : Bool :=
  b.recurrenceSeriesId == pivot.recurrenceSeriesId && !b.status.terminal &&
    (scope == .series || decide (pivot.startAt ≤ b.startAt))

def cancelSet (db : BookingDb) (pivot : BookingRow) (scope : CancelScope) :
    Except CancelError (List Nat) :=
  match scope with
  | .this => .ok [pivot.id]
  | _ =>
      if pivot.recurrenceSeriesId.isNone then .error (.notRecurring pivot.id)
      else
        let ids := ((db.bookings.rows.filter (inCancelScope pivot scope)).map BookingRow.id).insertionSort
          (· ≤ ·)
        .ok (if ids.contains pivot.id then ids else ids ++ [pivot.id])

/-! ## The cascade -/

structure CancelCounts where
  slotsTransitioned : Nat := 0
  ordersCancelled : Nat := 0
  assetReservationsCancelled : Nat := 0
  workOrdersClosed : Nat := 0
  approvalsExpired : Nat := 0
  emitted : Nat := 0
  deriving DecidableEq, Repr

def orderOf (bookingId : Nat) (o : OrderRow) : Bool := o.bookingId == some bookingId

/-- The line was not taken up by the kitchen yet. A cancelled line is one of these. -/
def cancellableLine (db : BookingDb) (bookingId : Nat) (l : OrderLineItem) : Bool :=
  (db.orders.rows.any fun o => o.id == l.orderId && orderOf bookingId o) &&
    match l.fulfillmentStatus with
    | .confirmed | .preparing | .delivered => false
    | _ => true

def closableWorkOrder (db : BookingDb) (bookingId : Nat) (w : WorkOrderRow) : Bool :=
  (db.orderLineItems.rows.any fun l =>
      w.linkedOrderLineItemId == some l.id && cancellableLine db bookingId l) &&
    match w.statusCategory with
    | .resolved | .closed => false
    | _ => true

def cancelLine : Table.Assignment OrderLineItem :=
  ⟨fun l => { l with fulfillmentStatus := .cancelled, pendingSetupTriggerArgs := none },
    fun _ => rfl⟩

section

variable (db : BookingDb) (bookingId : Nat)

def cancelledLines : Table OrderLineItem :=
  db.orderLineItems.update (cancellableLine db bookingId) cancelLine

def touchedOrders : List Nat :=
  ((db.orderLineItems.rows.filter (cancellableLine db bookingId)).map
    OrderLineItem.orderId).eraseDups

def fullyCancelledOrder (o : OrderRow) : Bool :=
  orderOf bookingId o && (touchedOrders db bookingId).contains o.id && o.status != .cancelled &&
    o.status != .fulfilled && ((cancelledLines db bookingId).rows.any fun l => l.orderId == o.id) &&
    (cancelledLines db bookingId).rows.all fun l =>
      l.orderId != o.id || l.fulfillmentStatus == .cancelled

end

def heldAsset (bookingId : Nat) (r : AssetReservationRow) : Bool :=
  r.bookingId == some bookingId && r.status == .confirmed

def openSlot (bookingId : Nat) (s : SlotRow) : Bool :=
  s.bookingId == bookingId && !s.status.terminal

def cancelSlot (graceUntil : Int) : Table.Assignment SlotRow :=
  ⟨fun s => { s with status := .cancelled, cancellationGraceUntil := some graceUntil },
    fun _ => rfl⟩

def pendingAbout (bookingId : Nat) (r : ApprovalRow) : Bool :=
  aboutBooking bookingId r && r.status == .pending

/-- The writes of the cascade for one booking. -/
def cancelRows (call : CancelCall) (db : BookingDb) (bookingId : Nat) : BookingDb :=
  { db with
    assetReservations := db.assetReservations.update (heldAsset bookingId)
      ⟨fun r => { r with status := .cancelled }, fun _ => rfl⟩
    workOrders := db.workOrders.update (closableWorkOrder db bookingId)
      ⟨fun w => { w with statusCategory := .closed, closedAt := some call.now }, fun _ => rfl⟩
    orderLineItems := cancelledLines db bookingId
    orders := db.orders.update (fullyCancelledOrder db bookingId)
      ⟨fun o => { o with status := .cancelled }, fun _ => rfl⟩
    slots := db.slots.update (openSlot bookingId) (cancelSlot call.graceUntil)
    bookings := db.bookings.update (fun b => b.id == bookingId)
      ⟨fun b => { b with status := .cancelled }, fun _ => rfl⟩
    approvals := db.approvals.update (pendingAbout bookingId)
      (expire call.now "Booking cancelled; voiding approval")
    domainEvents := db.domainEvents ++
      [{ eventType := "booking.cancelled", entityType := "booking", entityId := bookingId }] }

def cancelCountsOf (db : BookingDb) (bookingId : Nat) (counts : CancelCounts) : CancelCounts where
  slotsTransitioned := counts.slotsTransitioned + db.slots.rows.countP (openSlot bookingId)
  ordersCancelled := counts.ordersCancelled +
    db.orders.rows.countP (fullyCancelledOrder db bookingId)
  assetReservationsCancelled := counts.assetReservationsCancelled +
    db.assetReservations.rows.countP (heldAsset bookingId)
  workOrdersClosed := counts.workOrdersClosed +
    db.workOrders.rows.countP (closableWorkOrder db bookingId)
  approvalsExpired := counts.approvalsExpired + db.approvals.rows.countP (pendingAbout bookingId)
  emitted := counts.emitted + 2

def cancelEvents (call : CancelCall) (bookingId : Nat) : List (Event BookingEventKey BookingEvent) :=
  [⟨.bookingCancelled bookingId, .bookingCancelled bookingId call.reasonText call.now⟩,
    ⟨.bookingCancelCascadeRequired bookingId,
      .bookingCancelCascadeRequired bookingId call.reasonText call.now⟩]

def cancelOne (call : CancelCall) (acc : BookingDb × CancelCounts) (bookingId : Nat) :
    Except CancelError (BookingDb × CancelCounts) :=
  match emitAll acc.1.outbox (cancelEvents call bookingId) with
  | .error e => .error (.emit e)
  | .ok outbox => .ok
      ({ cancelRows call acc.1 bookingId with outbox := outbox },
        cancelCountsOf acc.1 bookingId acc.2)

/-! ## The function -/

def cancelPayload (call : CancelCall) (scope : CancelScope) : BookingPayload :=
  .cancel call.bookingId call.actorUserId scope call.reasonText call.graceMinutes

def endSeries (series : Table SeriesRow) (pivot : BookingRow) : Table SeriesRow :=
  series.update (fun r => some r.id == pivot.recurrenceSeriesId)
    ⟨fun r => { r with seriesEndAt := some pivot.startAt }, fun _ => rfl⟩

/-- The steps after the gate. -/
def cancelFresh (call : CancelCall) (scope : CancelScope) (store : BookingStore) :
    Except CancelError (BookingStore × BookingResult) :=
  match store.db.bookings.get? call.bookingId with
  | none => .error (.notFound call.bookingId)
  | some pivot =>
      if pivot.status = .cancelled then
        .ok (store, .cancelled scope [call.bookingId] call.bookingId 0 0 0 0 0 0 true)
      else match cancelSet store.db pivot scope with
        | .error e => .error e
        | .ok bookingIds =>
            match bookingIds.foldlM (cancelOne call) (store.db, {}) with
            | .error e => .error e
            | .ok (db, counts) => .ok
                ({ store with
                    db := db
                    series := if scope = .this then store.series else endSeries store.series pivot },
                  .cancelled scope bookingIds call.bookingId counts.slotsTransitioned
                    counts.ordersCancelled counts.assetReservationsCancelled
                    counts.workOrdersClosed counts.approvalsExpired counts.emitted false)

/-- `cancel_booking_with_cascade`. -/
def cancelBookingWithCascade (store : BookingStore) (call : CancelCall) :
    Except CancelError (BookingStore × BookingResult) :=
  if call.idempotencyKey = "" then .error .idempotencyKeyRequired
  else match parseScope call.scope with
    | none => .error .invalidScope
    | some scope =>
        match call.actorUserId with
        | some authUid =>
            if (call.env.userOf authUid).isNone then .error (.actorNotFound authUid)
            else gated store call scope
        | none => gated store call scope
where
  gated (store : BookingStore) (call : CancelCall) (scope : CancelScope) :
      Except CancelError (BookingStore × BookingResult) :=
    match gate store.operations call.idempotencyKey (cancelPayload call scope) with
    | .error e => .error (.gate e)
    | .ok (.cached result) => .ok (store, result)
    | .ok .proceed =>
        match cancelFresh call scope store with
        | .error e => .error e
        | .ok (after, result) => .ok
            ({ after with
                operations := finish (begin store.operations call.idempotencyKey
                  (cancelPayload call scope)) call.idempotencyKey result },
              result)

/-! ## What a call can do -/

/-- The bookings `ids` are cancelled with their open slots and pending approvals, and nothing else
changes its status. -/
structure CancelsBookings (ids : List Nat) (db db' : BookingDb) : Prop where
  slots : ∃ g : SlotRow → SlotRow, db'.slots.rows = db.slots.rows.map g ∧
    ∀ s, (g s).bookingId = s.bookingId ∧
      (g s).status =
        if s.bookingId ∈ ids ∧ s.status.terminal = false then .cancelled else s.status
  bookings : ∀ b, db'.status? b =
    if b ∈ ids then (db.status? b).map fun _ => .cancelled else db.status? b
  approvals : ∃ g : ApprovalRow → ApprovalRow, db'.approvals.rows = db.approvals.rows.map g ∧
    ∀ r, (g r).AnswerOf r ∧
      (g r).status =
        if r.targetEntityType = .booking ∧ r.targetEntityId ∈ ids ∧ r.status = .pending then .expired
        else r.status

theorem CancelsBookings.nil (db : BookingDb) : CancelsBookings [] db db where
  slots := ⟨id, (List.map_id _).symm, fun s => ⟨rfl, by simp⟩⟩
  bookings := fun b => by simp
  approvals := ⟨id, (List.map_id _).symm, fun r => ⟨.refl r, by simp⟩⟩

theorem CancelsBookings.trans {ids ids' : List Nat} {a b c : BookingDb}
    (h : CancelsBookings ids a b) (h' : CancelsBookings ids' b c) :
    CancelsBookings (ids ++ ids') a c := by
  obtain ⟨f, hf, hfs⟩ := h.slots
  obtain ⟨f', hf', hfs'⟩ := h'.slots
  obtain ⟨g, hg, hgs⟩ := h.approvals
  obtain ⟨g', hg', hgs'⟩ := h'.approvals
  refine ⟨⟨f' ∘ f, by rw [hf', hf, List.map_map], ?_⟩, ?_,
    ⟨g' ∘ g, by rw [hg', hg, List.map_map], ?_⟩⟩
  · intro s
    obtain ⟨hbooking, hstatus⟩ := hfs s
    obtain ⟨hbooking', hstatus'⟩ := hfs' (f s)
    refine ⟨hbooking'.trans hbooking, ?_⟩
    show (f' (f s)).status = _
    rw [hstatus', hbooking, hstatus]
    simp only [List.mem_append]
    by_cases hin : s.bookingId ∈ ids ∧ s.status.terminal = false
    · have hcancelled : BookingStatus.cancelled.terminal = true := rfl
      simp [hin, hcancelled]
    · by_cases hids : s.bookingId ∈ ids
      · have hterminal : s.status.terminal = true := by simpa [hids] using hin
        simp [hids, hterminal]
      · simp [hids]
  · intro b
    rw [h'.bookings b, h.bookings b]
    simp only [List.mem_append]
    by_cases hids : b ∈ ids
    · simp [hids, Function.comp_def]
    · simp [hids]
  · intro r
    obtain ⟨hanswer, hstatus⟩ := hgs r
    obtain ⟨hanswer', hstatus'⟩ := hgs' (g r)
    refine ⟨hanswer'.trans hanswer, ?_⟩
    show (g' (g r)).status = _
    rw [hstatus', hanswer.targetEntityType_eq, hanswer.targetEntityId_eq, hstatus]
    simp only [List.mem_append]
    by_cases hin : r.targetEntityType = .booking ∧ r.targetEntityId ∈ ids ∧ r.status = .pending
    · simp [hin]
    · by_cases hids : r.targetEntityId ∈ ids
      · simp [hids] at hin ⊢
        grind
      · simp [hids]

variable {call : CancelCall} {acc acc' : BookingDb × CancelCounts}

theorem cancelOne_cancels {bookingId : Nat} (h : cancelOne call acc bookingId = .ok acc') :
    CancelsBookings [bookingId] acc.1 acc'.1 := by
  unfold cancelOne at h
  split at h
  · cases h
  cases h
  refine ⟨⟨_, rfl, ?_⟩, ?_, ⟨_, rfl, ?_⟩⟩
  · intro s
    by_cases hopen : openSlot bookingId s = true
    · rw [Table.updated_of_true hopen]
      simp only [openSlot, Bool.and_eq_true, beq_iff_eq, Bool.not_eq_true'] at hopen
      simp [cancelSlot, hopen]
    · rw [Table.updated_of_false (by simpa using hopen)]
      simp only [openSlot, Bool.and_eq_true, beq_iff_eq, Bool.not_eq_true'] at hopen
      simp [hopen]
  · intro b
    simp only [BookingDb.status?, cancelRows, Table.get?_update, List.mem_singleton]
    rcases Option.eq_none_or_eq_some (acc.1.bookings.get? b) with hget | ⟨row, hget⟩
    · simp [hget]
    · have hid : row.id = b := (Table.get?_eq_some.mp hget).2
      by_cases hb : b = bookingId
      · have hrow : (row.id == bookingId) = true := by simp [hid, hb]
        simp only [hget, if_pos hb, Option.map_some, Table.updated, hrow, if_true]
      · have hrow : (row.id == bookingId) = false := by simp [hid, hb]
        simp only [hget, if_neg hb, Option.map_some, Table.updated, hrow, Bool.false_eq_true,
          if_false]
  · intro r
    by_cases hpending : pendingAbout bookingId r = true
    · rw [Table.updated_of_true hpending]
      simp only [pendingAbout, aboutBooking, Bool.and_eq_true, beq_iff_eq] at hpending
      refine ⟨rfl, ?_⟩
      simp [expire, hpending]
    · rw [Table.updated_of_false (by simpa using hpending)]
      simp only [pendingAbout, aboutBooking, Bool.and_eq_true, beq_iff_eq] at hpending
      refine ⟨.refl r, ?_⟩
      rw [if_neg]
      intro h
      exact hpending ⟨⟨h.1, by simpa using h.2.1⟩, h.2.2⟩

theorem foldlM_cancelOne_cancels {bookingIds : List Nat}
    (h : bookingIds.foldlM (cancelOne call) acc = .ok acc') :
    CancelsBookings bookingIds acc.1 acc'.1 := by
  induction bookingIds generalizing acc with
  | nil =>
    cases h
    exact .nil _
  | cons bookingId bookingIds ih =>
    rw [List.foldlM_cons] at h
    cases hone : cancelOne call acc bookingId with
    | error e =>
      rw [hone] at h
      cases h
    | ok mid =>
      rw [hone] at h
      exact (cancelOne_cancels hone).trans (ih h)

def BookingResult.bookingIds : BookingResult → List Nat
  | .cancelled _ ids _ _ _ _ _ _ _ _ => ids
  | .edited .. | .editedScope .. | .linesCancelled .. | .split .. => []

/-- The ways a call ends without raising. -/
inductive CancelStep (store : BookingStore) (call : CancelCall) (store' : BookingStore)
    (result : BookingResult) : Prop where
  /-- The key was used for the same cancellation before. -/
  | cached (hused : store.operations.get? call.idempotencyKey ≠ none) (hsame : store' = store)
  /-- The booking is cancelled already. -/
  | already (hcancelled : store.db.status? call.bookingId = some .cancelled)
      (hids : result.bookingIds = [call.bookingId]) (hdb : store'.db = store.db)
  | done (hcancels : CancelsBookings result.bookingIds store.db store'.db)

variable {store store' : BookingStore} {result : BookingResult}

theorem cancelFresh_cases {scope : CancelScope}
    (h : cancelFresh call scope store = .ok (store', result)) :
    (store.db.status? call.bookingId = some .cancelled ∧ result.bookingIds = [call.bookingId] ∧
        store'.db = store.db) ∨
      CancelsBookings result.bookingIds store.db store'.db := by
  unfold cancelFresh at h
  split at h
  · cases h
  rename_i pivot hpivot
  split at h
  · rename_i hcancelled
    cases h
    exact .inl ⟨by simp [BookingDb.status?, hpivot, hcancelled], rfl, rfl⟩
  · split at h
    · cases h
    · split at h
      · cases h
      · rename_i hfold
        cases h
        exact .inr (foldlM_cancelOne_cancels hfold)

theorem cancelGated_cases {scope : CancelScope}
    (h : cancelBookingWithCascade.gated store call scope = .ok (store', result)) :
    CancelStep store call store' result := by
  simp only [cancelBookingWithCascade.gated] at h
  split at h
  · cases h
  · rename_i hgate
    cases h
    refine .cached ?_ rfl
    intro hfresh
    rw [gate_eq_proceed.mpr hfresh] at hgate
    cases hgate
  · split at h
    · cases h
    · rename_i hfresh
      cases h
      rcases cancelFresh_cases hfresh with ⟨hcancelled, hids, hdb⟩ | hcancels
      · exact .already hcancelled hids hdb
      · exact .done hcancels

/-- Every call that does not raise repeats an earlier one, finds the booking cancelled, or cancels
the bookings of its scope. -/
theorem cancelBooking_cases (h : cancelBookingWithCascade store call = .ok (store', result)) :
    CancelStep store call store' result := by
  simp only [cancelBookingWithCascade] at h
  split at h
  · cases h
  · split at h
    · cases h
    · split at h
      · split at h
        · cases h
        · exact cancelGated_cases h
      · exact cancelGated_cases h

end Prequest.Booking
