import Prequest.Booking.AttachServices
import Prequest.Booking.CancelLines
import Prequest.Booking.CheckIn
import Prequest.Booking.Create
import Prequest.Booking.EditScope
import Prequest.Booking.Restore
import Prequest.Booking.SkipOccurrence
import Prequest.Recurrence.Materialize

/-!
# Everything that happens to bookings

The functions of the database and the services around them, on one set of
tables. A function of the database is one step: it commits or is rolled back.
The check-in and the auto-release scan write from the API, so each of their
statements is a step, and several calls of them run at once.

* `bookingStep`: the next step, by anybody.
-/

namespace Prequest.Booking

open Prequest.Lib Prequest.Command Prequest.Orders Prequest.Recurrence

/-- The tables, the calls of the services that are under way, and the keys in `attach_operations`. -/
structure BookingWorld extends LifecycleWorld where
  creations : Table (CommandOperation String (BookingInput × AttachPlan) CreateResult) := Table.empty
  attachments : Table (CommandOperation String AttachPlan CreateResult) := Table.empty

/-- What can happen next. -/
inductive BookingAction where
  | lifecycle (action : LifecycleAction)
  | create (input : BookingInput) (plan : AttachPlan) (key : String) (now : Nat)
  | attach (bookingId : Nat) (plan : AttachPlan) (key : String) (now : Nat)
  | createSlot (rooms : Nat → TargetSpace) (c : Candidate)
  | edit (call : EditCall)
  | editScope (call : ScopeCall) (dryRun : Bool)
  | cancelLines (call : CancelLinesCall)
  | split (call : SplitCall)
  | restore (call : RestoreCall)
  | skip (ctx : ReservationVisibilityContext) (bookedBy : Nat → Option Nat) (id : Nat)
  | materialize (calendars : Nat → List Int) (seriesId : Nat) (call : MaterializeCall)

/-- What a transaction leaves: its own writes, or nothing if it raises. -/
def committed {σ ε ρ : Type} (s : σ) : Except ε (σ × ρ) → σ
  | .ok (s', _) => s'
  | .error _ => s

section

variable (ruleInTenant : Nat → Bool) (uuid : PlanUuid → Nat)
  (valid : BookingInput → AttachPlan → Bool)

def BookingWorld.setStore (w : BookingWorld) (store : BookingStore) : BookingWorld :=
  { w with store := store }

def bookingStep (w : BookingWorld) : BookingAction → BookingWorld
  | .lifecycle action =>
      { w with toLifecycleWorld := lifecycleStep ruleInTenant w.toLifecycleWorld action }
  | .create input plan key now =>
      let tables : CreateStore := { db := w.store.db, operations := w.creations }
      let tables' := committed tables
        (createBookingWithAttachPlan uuid valid tables input plan key now)
      { w.setStore { w.store with db := tables'.db } with creations := tables'.operations }
  | .attach bookingId plan key now =>
      let tables : AttachStore := { db := w.store.db, operations := w.attachments }
      let tables' := committed tables
        (attachServicesToExistingBooking uuid valid tables bookingId plan key now)
      { w.setStore { w.store with db := tables'.db } with attachments := tables'.operations }
  | .createSlot rooms c => w.setStore { w.store with db := createOne rooms w.store.db c }
  | .edit call => w.setStore (committed w.store (editBooking w.store call))
  | .editScope call dryRun => w.setStore (committed w.store (editBookingScope w.store call dryRun))
  | .cancelLines call => w.setStore (committed w.store (cancelOrderLinesWithCascade w.store call))
  | .split call => w.setStore (committed w.store (splitRecurrenceSeries w.store call))
  | .restore call => w.setStore { w.store with db := (Booking.restore w.store.db call).1 }
  | .skip ctx bookedBy id =>
      match skipOccurrence ctx bookedBy w.store.db id with
      | .ok db => w.setStore { w.store with db := db }
      | .error _ => w
  | .materialize calendars seriesId call =>
      w.setStore (committed w.store (Recurrence.materialize calendars w.store seriesId call))

/-- The world after the actions. -/
def runBookings (w : BookingWorld) (actions : List BookingAction) : BookingWorld :=
  run (bookingStep ruleInTenant uuid valid) w actions

end

/-- What a transaction that commits keeps, every transaction keeps. -/
theorem committed_invariant {σ ε ρ : Type} {I : σ → Prop} {s : σ} {e : Except ε (σ × ρ)} (hs : I s)
    (hok : ∀ s' out, e = .ok (s', out) → I s') : I (committed s e) := by
  cases e with
  | error e => exact hs
  | ok out => exact hok out.1 out.2 rfl

end Prequest.Booking
