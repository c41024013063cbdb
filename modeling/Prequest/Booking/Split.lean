import Prequest.Booking.Command

/-!
# Splitting a series

`split_recurrence_series` cuts a series at one of its bookings: the booking and those
that start no earlier move to a new series, with the rule and the bounds of the old one,
and the old series ends at the booking.
-/

namespace Prequest.Booking

open Prequest.Lib Prequest.Command Prequest.Recurrence

/-- The arguments of a call, with the id that its new series is drawn. -/
structure SplitCall where
  bookingId : Nat
  actorUserId : Option Nat := none
  idempotencyKey : String
  newSeriesId : Nat
  env : CommandEnv

/-- The exceptions of the function. -/
inductive SplitError where
  | idempotencyKeyRequired
  | actorNotFound (authUid : Nat)
  | gate (e : GateError)
  | notFound (bookingId : Nat)
  | notRecurring (bookingId : Nat)
  | seriesNotFound (seriesId : Nat)
  | uniqueViolation
  deriving DecidableEq, Repr

def movesTo (pivot : BookingRow) (sourceId : Nat) (b : BookingRow) : Bool :=
  b.recurrenceSeriesId == some sourceId && decide (pivot.startAt ≤ b.startAt)

def splitSeriesRow (newSeriesId : Nat) (pivot : BookingRow) (source : SeriesRow) : SeriesRow :=
  { source with
    id := newSeriesId
    seriesStartAt := pivot.startAt
    parentBookingId := some pivot.id }

theorem key_endedSeries (pivot : BookingRow) (r : SeriesRow) :
    Keyed.key { r with seriesEndAt := some pivot.startAt } = Keyed.key r := rfl

/-- The three writes. -/
def splitSeries (call : SplitCall) (pivot : BookingRow) (source : SeriesRow) (store : BookingStore) :
    Except SplitError (BookingStore × BookingResult) :=
  match store.series.insert? (splitSeriesRow call.newSeriesId pivot source) with
  | none => .error .uniqueViolation
  | some series => .ok
      ({ store with
          db := { store.db with
            bookings := store.db.bookings.update (movesTo pivot source.id)
              ⟨fun b => { b with recurrenceSeriesId := some call.newSeriesId }, fun _ => rfl⟩ }
          series := series.update (fun r => r.id == source.id)
            ⟨fun r => { r with seriesEndAt := some pivot.startAt }, key_endedSeries pivot⟩ },
        .split call.newSeriesId source.id
          (store.db.bookings.rows.countP (movesTo pivot source.id)) pivot.id)

/-- The steps after the gate. -/
def splitFresh (call : SplitCall) (store : BookingStore) :
    Except SplitError (BookingStore × BookingResult) :=
  match store.db.bookings.get? call.bookingId with
  | none => .error (.notFound call.bookingId)
  | some pivot =>
      match pivot.recurrenceSeriesId with
      | none => .error (.notRecurring call.bookingId)
      | some seriesId =>
          match store.series.get? seriesId with
          | none => .error (.seriesNotFound seriesId)
          | some source => splitSeries call pivot source store

def splitPayload (call : SplitCall) : BookingPayload := .split call.bookingId call.actorUserId

/-- `split_recurrence_series`. -/
def splitRecurrenceSeries (store : BookingStore) (call : SplitCall) :
    Except SplitError (BookingStore × BookingResult) :=
  if call.idempotencyKey = "" then .error .idempotencyKeyRequired
  else match call.actorUserId with
    | some authUid =>
        if (call.env.userOf authUid).isNone then .error (.actorNotFound authUid)
        else gated store call
    | none => gated store call
where
  gated (store : BookingStore) (call : SplitCall) :
      Except SplitError (BookingStore × BookingResult) :=
    match gate store.operations call.idempotencyKey (splitPayload call) with
    | .error e => .error (.gate e)
    | .ok (.cached result) => .ok (store, result)
    | .ok .proceed =>
        match splitFresh call store with
        | .error e => .error e
        | .ok (after, result) => .ok
            ({ after with
                operations := finish (begin store.operations call.idempotencyKey (splitPayload call))
                  call.idempotencyKey result },
              result)

end Prequest.Booking
