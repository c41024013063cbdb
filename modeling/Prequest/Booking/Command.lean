import Prequest.Booking.EditPlan
import Prequest.Command.Operation
import Prequest.Recurrence.Series

/-!
# The commands on a booking

`edit_booking`, `cancel_booking_with_cascade`, `cancel_order_lines_with_cascade` and
`split_recurrence_series` record themselves in `command_operations` under the caller's key. One key
names one command: a key that was used for an edit is refused for a cancellation.
-/

namespace Prequest.Booking

open Prequest.Lib Prequest.Approval Prequest.Command Prequest.Recurrence

/-- `p_scope` of a cancellation. -/
inductive CancelScope where
  | this
  | thisAndFollowing
  | series
  deriving DecidableEq, Repr

/-- What the hash of a command is taken of. The hash of an edit leaves out `_resolution_at`,
`old_outcome` and `chain_config_changed`; that of a cancellation of lines has the lines of the call,
or none for all lines of the booking. -/
inductive BookingPayload where
  | edit (plan : EditPlan)
  | editScope (plans : List (Nat × EditPlan))
  | cancel (bookingId : Nat) (actorUserId : Option Nat) (scope : CancelScope) (reason : String)
      (graceMinutes : Option Int)
  | cancelLines (bookingId : Nat) (lineIds : Option (List Nat)) (keepLineIds : List Nat)
      (actorUserId : Option Nat) (reason : String)
  | split (bookingId : Nat) (actorUserId : Option Nat)
  deriving DecidableEq, Repr

/-- The names of the events an edit emits. -/
inductive FollowUp where
  | locationChanged
  | costChanged
  | approvalRequired
  | timerRepointedRequired
  deriving DecidableEq, Repr

structure OccurrenceEdit where
  bookingId : Nat
  slotsUpdated : Nat
  assetsUpdated : Nat
  ordersUpdated : Nat
  woUpdated : Nat
  followUps : List FollowUp
  spaceIdBefore : Option Nat
  spaceIdAfter : Nat
  startAtBefore : Option Int
  startAtAfter : Int
  deriving DecidableEq, Repr

inductive BookingResult where
  | edited (booking : BookingRow) (followUps : List FollowUp)
      (slotsUpdated assetsUpdated ordersUpdated woUpdated : Nat)
  | editedScope (seriesId : Nat) (perOccurrence : List OccurrenceEdit)
  | cancelled (scope : CancelScope) (bookingIds : List Nat) (pivot : Nat)
      (slotsTransitioned ordersCancelled assetReservationsCancelled workOrdersClosed
        approvalsExpired emitted : Nat) (alreadyCancelled : Bool)
  | linesCancelled (cancelledLineIds ticketIds assetReservationIds rescopedApprovalIds
        expiredApprovalIds : List Nat) (bookingCancelled : Bool)
      (fulfilledLineIds keptLineIds : List Nat)
  | split (newSeriesId sourceSeriesId forwardCount pivotBookingId : Nat)
  deriving DecidableEq, Repr

structure BookingStore where
  db : BookingDb
  series : Table SeriesRow := Table.empty
  operations : Table (CommandOperation String BookingPayload BookingResult) := Table.empty
  deriving DecidableEq

/-- The kinds of entities a plan may name. -/
inductive EntityKind where
  | person
  | team
  | space
  | costCenter
  | bookingRule
  | workOrder
  deriving DecidableEq, Repr

inductive RuleTarget where
  | tenant
  | room (spaceId : Nat)
  | spaceSubtree
  | roomType
  deriving DecidableEq, Repr

/-- What a command reads of other tables. -/
structure CommandEnv where
  /-- The user with an `auth_uid`. -/
  userOf : Nat → Option Nat
  /-- `validate_entity_in_tenant`. -/
  entityInTenant : EntityKind → Nat → Bool
  /-- `target` and `updated_at` of the rows of `room_booking_rules`. -/
  rules : List (RuleTarget × Int)

end Prequest.Booking
