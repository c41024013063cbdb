import Prequest.Booking.LinkedRows
import Prequest.Booking.Split
import Prequest.Lib.Loop

/-!
# Editing a series

`editScope` edits the occurrences of a series: all of them, or a pivot and those
that follow. A commit of the second kind first splits the series at the pivot, in
a transaction of its own; then the occurrences are planned one by one, and
`edit_booking_scope` applies the plans in one transaction. A dry run does not
split, and the function runs a branch that only reads.

* `previewOccurrence`, `commitOccurrence`: the two branches.
-/

namespace Prequest.Booking

open Prequest.Lib Prequest.Approval Prequest.Command

/-! ## Planning -/

/-- `scope` of an edit of a series. -/
inductive EditScope where
  | thisAndFollowing
  | series
  deriving DecidableEq, Repr

/-- The changes to every occurrence. -/
structure ScopePatch where
  spaceId : Option Nat := none
  attendeeCount : Option (Option Nat) := none
  attendeePersonIds : Option (List Nat) := none
  hostPersonId : Option (Option Nat) := none
  deriving DecidableEq, Repr

/-- What the planner gets for an occurrence: a series edit moves no time. -/
def ScopePatch.slotPatch (patch : ScopePatch) : EditPatch where
  spaceId := patch.spaceId
  attendeeCount := patch.attendeeCount
  attendeePersonIds := patch.attendeePersonIds
  hostPersonId := patch.hostPersonId

/-- The exceptions of `assembleScopeEditPlan`. -/
inductive ScopePlanError where
  | notFound (bookingId : Nat)
  | notRecurring (bookingId : Nat)
  | seriesMismatch (seriesId effectiveSeriesId : Nat)
  | emptyScope (seriesId : Nat)
  | tooManyOccurrences (count : Nat)
  | primarySlotNotFound (bookingId : Nat)
  | slot (bookingId : Nat) (e : SlotPlanError)
  deriving DecidableEq, Repr

/-- `v_max_occurrences`. -/
def maxScopeOccurrences : Nat := 200

/-- A booking of the series that is not cancelled and starts no earlier than a time, if one is given. -/
def inScope (seriesId : Nat) (forwardOnlyFromStartAt : Option Int) (b : BookingRow) : Bool :=
  b.recurrenceSeriesId == some seriesId && b.status != .cancelled &&
    forwardOnlyFromStartAt.all fun startAt => decide (startAt ≤ b.startAt)

def scopeRows (db : BookingDb) (seriesId : Nat) (forwardOnlyFromStartAt : Option Int) : List Nat :=
  ((db.bookings.rows.filter (inScope seriesId forwardOnlyFromStartAt)).map
    BookingRow.id).insertionSort (· ≤ ·)

def planOccurrence (env : EditPlanEnv) (db : BookingDb) (patch : ScopePatch) (resolutionAt : Int)
    (bookingId : Nat) : Except ScopePlanError (Nat × EditPlan) :=
  match primarySlot db bookingId with
  | none => .error (.primarySlotNotFound bookingId)
  | some slot =>
      match buildSingleSlotPlan env db bookingId slot.id patch.slotPatch resolutionAt .singleSlot with
      | .error e => .error (.slot bookingId e)
      | .ok plan => .ok (bookingId, plan)

def assembleScopeEditPlan (env : EditPlanEnv) (db : BookingDb) (bookingId effectiveSeriesId : Nat)
    (patch : ScopePatch) (resolutionAt : Int) (forwardOnlyFromStartAt : Option Int) :
    Except ScopePlanError (List (Nat × EditPlan)) :=
  match db.bookings.get? bookingId with
  | none => .error (.notFound bookingId)
  | some pivot =>
      match pivot.recurrenceSeriesId with
      | none => .error (.notRecurring bookingId)
      | some seriesId =>
          if seriesId ≠ effectiveSeriesId then .error (.seriesMismatch seriesId effectiveSeriesId)
          else
            let rows := scopeRows db effectiveSeriesId forwardOnlyFromStartAt
            if rows = [] then .error (.emptyScope effectiveSeriesId)
            else if maxScopeOccurrences < rows.length then .error (.tooManyOccurrences rows.length)
            else rows.mapM (planOccurrence env db patch resolutionAt)

/-! ## One occurrence -/

def checkEdit (call : EditCall) (db : BookingDb) : Except EditError (BookingRow × EditAction) :=
  match db.bookings.get? call.bookingId with
  | none => .error (.notFound call.bookingId)
  | some b =>
      if b.status = .cancelled then .error (.cancelledCannotEdit call.bookingId)
      else if (rulesMaxUpdatedAt call.env.rules b.locationId call.plan.booking.locationId).any
          fun t => decide (call.plan.resolutionAt < t) then .error .staleResolution
      else match decideApproval call.bookingId (approvalState db.approvals call.bookingId)
          call.plan.approval with
        | .error e => .error e
        | .ok action =>
            match (if action.inserts then approversToInsert call.env call.plan.approval
              else .ok ⟨[], .all⟩) with
            | .error e => .error e
            | .ok _ =>
                match referenceError call.env db call.bookingId call.plan with
                | some e => .error e
                | none => .ok (b, action)

theorem editFresh_eq (call : EditCall) (store : BookingStore) :
    editFresh call store =
      match checkEdit call store.db with
      | .error e => .error e
      | .ok (b, action) => applyEdit call store b action := by
  unfold editFresh checkEdit
  cases store.db.bookings.get? call.bookingId with
  | none => rfl
  | some b =>
    simp only
    by_cases hcancelled : b.status = .cancelled
    · rw [if_pos hcancelled, if_pos hcancelled]
    rw [if_neg hcancelled, if_neg hcancelled]
    by_cases hstale : (rulesMaxUpdatedAt call.env.rules b.locationId
        call.plan.booking.locationId).any (fun t => decide (call.plan.resolutionAt < t)) = true
    · rw [if_pos hstale, if_pos hstale]
    rw [if_neg hstale, if_neg hstale]
    cases decideApproval call.bookingId (approvalState store.db.approvals call.bookingId)
        call.plan.approval with
    | error e => rfl
    | ok action =>
      simp only
      cases (if action.inserts then approversToInsert call.env call.plan.approval
          else .ok ⟨[], .all⟩) with
      | error e => rfl
      | ok config =>
        simp only
        cases referenceError call.env store.db call.bookingId call.plan with
        | some e => rfl
        | none => rfl

/-- The arguments of `edit_booking_scope`, with the time of its transaction and the ids it draws for
each occurrence. -/
structure ScopeCall where
  plans : List (Nat × EditPlan)
  actorUserId : Option Nat := none
  idempotencyKey : String
  now : Nat
  newChainId : Nat → Nat
  newApprovalId : Nat → Nat → Nat
  env : CommandEnv

def ScopeCall.edit (call : ScopeCall) (p : Nat × EditPlan) : EditCall where
  bookingId := p.1
  plan := p.2
  actorUserId := call.actorUserId
  idempotencyKey := call.idempotencyKey
  now := call.now
  newChainId := call.newChainId p.1
  newApprovalId := call.newApprovalId p.1
  env := call.env

/-- One occurrence in the result of a dry run. -/
structure OccurrencePreview where
  bookingId : Nat
  wouldSucceed : Bool := true
  approvalAction : EditAction
  followUpsPreview : List FollowUp
  slotsToUpdate : Nat
  assetsToUpdate : Nat
  ordersToUpdate : Nat
  woToUpdate : Nat
  spaceIdBefore : Option Nat
  spaceIdAfter : Nat
  startAtBefore : Option Int
  startAtAfter : Int
  deriving DecidableEq, Repr

/-- The follow-ups that a dry run announces: it leaves out the one of the approvals. -/
def followUpsPreview (plan : EditPlan) (b : BookingRow) : List FollowUp :=
  (if b.locationId = plan.booking.locationId then [] else [.locationChanged]) ++
  (if b.costAmountSnapshot = plan.booking.costAmountSnapshot then [] else [.costChanged]) ++
  ((plan.workOrderSlaPatches.filter (·.needsRepoint)).map fun _ => .timerRepointedRequired)

/-- The branch of a dry run. -/
def previewOccurrence (call : ScopeCall) (db : BookingDb) (p : Nat × EditPlan) :
    Except EditError OccurrencePreview :=
  match checkEdit (call.edit p) db with
  | .error e => .error e
  | .ok (b, action) => .ok
      { bookingId := p.1
        approvalAction := action
        followUpsPreview := followUpsPreview p.2 b
        slotsToUpdate := p.2.slotPatches.length
        assetsToUpdate := p.2.assetReservationPatches.length
        ordersToUpdate := p.2.orderPatches.length
        woToUpdate := p.2.workOrderSlaPatches.length
        spaceIdBefore := (primarySlot db p.1).map SlotRow.spaceId
        spaceIdAfter := p.2.booking.locationId
        startAtBefore := (primarySlot db p.1).map SlotRow.startAt
        startAtAfter := p.2.booking.startAt }

def commitOccurrence (call : ScopeCall) (db : BookingDb) (p : Nat × EditPlan) :
    Except EditError (BookingDb × OccurrenceEdit) :=
  match checkEdit (call.edit p) db with
  | .error e => .error e
  | .ok (b, action) =>
      match applyEdit (call.edit p) { db := db } b action with
      | .error e => .error e
      | .ok (db', _) => .ok
          (db',
            { bookingId := p.1
              slotsUpdated := p.2.slotPatches.countP fun s => db.slots.rows.any (patchesSlot b.id s)
              assetsUpdated := p.2.assetReservationPatches.length
              ordersUpdated := p.2.orderPatches.length
              woUpdated := p.2.workOrderSlaPatches.length
              followUps := (editEvents (call.edit p) b action).map Prod.fst
              spaceIdBefore := (primarySlot db p.1).map SlotRow.spaceId
              spaceIdAfter := p.2.booking.locationId
              startAtBefore := (primarySlot db p.1).map SlotRow.startAt
              startAtAfter := p.2.booking.startAt })

/-! ## The function -/

/-- The exceptions of `edit_booking_scope`. -/
inductive EditScopeError where
  | idempotencyKeyRequired
  | invalidPlans
  | tooManyOccurrences (count : Nat)
  | actorNotFound (authUid : Nat)
  | gate (e : GateError)
  | bookingNotFound (bookingId : Nat)
  | mixedSeries
  | edit (e : EditError)
  deriving DecidableEq, Repr

inductive ScopeResult where
  | preview (seriesId : Nat) (perOccurrence : List OccurrencePreview)
  | committed (result : BookingResult)
  deriving DecidableEq, Repr

section

variable (call : ScopeCall) (db : BookingDb)

def scopeSeries : Except EditScopeError Nat :=
  let ids := call.plans.map Prod.fst
  if ¬ids.Nodup then .error .invalidPlans
  else match (ids.filter fun id => (db.bookings.get? id).isNone).min? with
    | some id => .error (.bookingNotFound id)
    | none =>
        match (ids.map fun id => (db.bookings.get? id).bind BookingRow.recurrenceSeriesId).dedup with
        | [some seriesId] => .ok seriesId
        | _ => .error .mixedSeries

/-- Step 7 of a dry run. -/
def previewScope : Except EditScopeError ScopeResult :=
  match scopeSeries call db with
  | .error e => .error e
  | .ok seriesId =>
      match call.plans.mapM (previewOccurrence call db) with
      | .error e => .error (.edit e)
      | .ok perOccurrence => .ok (.preview seriesId perOccurrence)

def commitScope :
    Except EditScopeError (BookingDb × BookingResult) :=
  match scopeSeries call db with
  | .error e => .error e
  | .ok seriesId =>
      match loop (commitOccurrence call) db call.plans with
      | .error e => .error (.edit e)
      | .ok (db', perOccurrence) => .ok (db', .editedScope seriesId perOccurrence)

end

def editScopePayload (plans : List (Nat × EditPlan)) : BookingPayload :=
  .editScope (plans.map fun p => (p.1, p.2.hashed))

/-- `edit_booking_scope`. A dry run is not recorded. -/
def editBookingScope (store : BookingStore) (call : ScopeCall) (dryRun : Bool) :
    Except EditScopeError (BookingStore × ScopeResult) :=
  if call.idempotencyKey = "" then .error .idempotencyKeyRequired
  else if call.plans = [] then .error .invalidPlans
  else if maxScopeOccurrences < call.plans.length then
    .error (.tooManyOccurrences call.plans.length)
  else if call.plans.any fun p => p.2.booking.recurrenceOverridden.isSome then .error .invalidPlans
  else match call.actorUserId with
    | some authUid =>
        if (call.env.userOf authUid).isNone then .error (.actorNotFound authUid)
        else run store call dryRun
    | none => run store call dryRun
where
  run (store : BookingStore) (call : ScopeCall) (dryRun : Bool) :
      Except EditScopeError (BookingStore × ScopeResult) :=
    if dryRun then (previewScope call store.db).map fun result => (store, result)
    else match gate store.operations call.idempotencyKey (editScopePayload call.plans) with
      | .error e => .error (.gate e)
      | .ok (.cached result) => .ok (store, .committed result)
      | .ok .proceed =>
          match commitScope call store.db with
          | .error e => .error e
          | .ok (db, result) => .ok
              ({ store with
                  db := db
                  operations := finish
                    (begin store.operations call.idempotencyKey (editScopePayload call.plans))
                    call.idempotencyKey result },
                .committed result)

/-! ## The operation -/

/-- A request to edit a series, with what is read and drawn for it. -/
structure ScopeRequest where
  /-- The pivot. -/
  bookingId : Nat
  scope : EditScope
  patch : ScopePatch
  /-- A time is sent with the patch. -/
  timeShift : Bool := false
  clientRequestId : String
  actorUserId : Option Nat := none
  resolutionAt : Int
  now : Nat
  newSeriesId : Nat
  newChainId : Nat → Nat
  newApprovalId : Nat → Nat → Nat
  planEnv : EditPlanEnv
  env : CommandEnv

inductive ScopeRequestError where
  | timeShiftNotSupported
  | bookingNotFound
  | notRecurring
  | split (e : SplitError)
  | recurrenceFailed
  | plan (e : ScopePlanError)
  | command (e : EditScopeError)
  deriving DecidableEq, Repr

structure ScopeResponse where
  newSeriesId : Option Nat
  result : ScopeResult
  deriving DecidableEq, Repr

namespace ScopeRequest

variable (r : ScopeRequest)

def idempotencyKey : String :=
  "booking:edit:scope:" ++ toString r.bookingId ++ ":" ++ r.clientRequestId

def splitKey : String :=
  "booking:recurrence:split:" ++ toString r.bookingId ++ ":" ++ r.clientRequestId

def splitCall : SplitCall where
  bookingId := r.bookingId
  actorUserId := r.actorUserId
  idempotencyKey := r.splitKey
  newSeriesId := r.newSeriesId
  env := r.env

def call (plans : List (Nat × EditPlan)) : ScopeCall where
  plans := plans
  actorUserId := r.actorUserId
  idempotencyKey := r.idempotencyKey
  now := r.now
  newChainId := r.newChainId
  newApprovalId := r.newApprovalId
  env := r.env

def apply (store : BookingStore) (effectiveSeriesId : Nat) (forwardOnlyFromStartAt : Option Int)
    (newSeriesId : Option Nat) (dryRun : Bool) :
    BookingStore × Except ScopeRequestError ScopeResponse :=
  match assembleScopeEditPlan r.planEnv store.db r.bookingId effectiveSeriesId r.patch r.resolutionAt
      forwardOnlyFromStartAt with
  | .error e => (store, .error (.plan e))
  | .ok plans =>
      match editBookingScope store (r.call plans) dryRun with
      | .error e => (store, .error (.command e))
      | .ok (store', result) => (store', .ok ⟨newSeriesId, result⟩)

end ScopeRequest

/-- `editScope` from the claimed basis on, which is `r.resolutionAt`. The split of a commit is a
transaction of its own, which an error after it does not undo. -/
def editScope (store : BookingStore) (r : ScopeRequest) (dryRun : Bool) :
    BookingStore × Except ScopeRequestError ScopeResponse :=
  if r.timeShift then (store, .error .timeShiftNotSupported)
  else match primarySlot store.db r.bookingId, store.db.bookings.get? r.bookingId with
    | some slot, some pivot =>
        match pivot.recurrenceSeriesId with
        | none => (store, .error .notRecurring)
        | some seriesId =>
            match r.scope, dryRun with
            | .series, _ => r.apply store seriesId none none dryRun
            | .thisAndFollowing, true => r.apply store seriesId (some slot.startAt) none true
            | .thisAndFollowing, false =>
                match splitRecurrenceSeries store r.splitCall with
                | .error e => (store, .error (.split e))
                | .ok (store', .split newSeriesId _ _ _) =>
                    r.apply store' newSeriesId none (some newSeriesId) false
                | .ok (store', _) => (store', .error .recurrenceFailed)
    | _, _ => (store, .error .bookingNotFound)

/-- A row of `producer_resolution_bases`. -/
structure ResolutionBasis where
  idempotencyKey : String
  basisAt : Int
  deriving DecidableEq, Repr

instance : Keyed ResolutionBasis String where
  key := ResolutionBasis.idempotencyKey

/-- `claim_producer_resolution_basis`: the first claim of a key inserts the basis. -/
def claimProducerResolutionBasis (bases : Table ResolutionBasis) (idempotencyKey : String)
    (now : Int) : Table ResolutionBasis × Int :=
  match bases.get? idempotencyKey with
  | some basis => (bases, basis.basisAt)
  | none => (bases.put { idempotencyKey := idempotencyKey, basisAt := now }, now)

structure ScopeTables where
  store : BookingStore
  bases : Table ResolutionBasis
  deriving DecidableEq

def ScopeRequest.resolvedAt (r : ScopeRequest) (basisAt : Int) : ScopeRequest :=
  { r with resolutionAt := basisAt }

/-- The whole of `editScope`. The basis is claimed before anything is read, by a dry run too. -/
def claimAndEditScope (tables : ScopeTables) (r : ScopeRequest) (now : Int) (dryRun : Bool) :
    ScopeTables × Except ScopeRequestError ScopeResponse :=
  if r.timeShift then (tables, .error .timeShiftNotSupported)
  else
    let (bases, basisAt) := claimProducerResolutionBasis tables.bases r.idempotencyKey now
    let (store, answer) := editScope tables.store (r.resolvedAt basisAt) dryRun
    (⟨store, bases⟩, answer)

end Prequest.Booking
