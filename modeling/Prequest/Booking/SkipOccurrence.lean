import Prequest.Booking.Access
import Prequest.Booking.CancelScope

/-!
# Skipping an occurrence

`ReservationService` ends an occurrence of a series in two ways. `cancelOne` runs the
cascade of the database; `skipOccurrence` updates the booking and its slots.

* `skipLaw_iff`: it holds exactly for an actor who may edit an occurrence with nothing attached.
-/

namespace Prequest.Booking

open Prequest.Lib Prequest.Outbox Prequest.Approval Prequest.Command Prequest.Recurrence

/-- What the service reads of a booking and its first slot. -/
structure Projection where
  reservation : Reservation
  status : BookingStatus
  recurrenceSeriesId : Option Nat

inductive ReservationError where
  | bookingNotFound
  | notVisible
  | notEditable
  | completed
  | notARecurringOccurrence
  | cancel (e : CancelError)
  deriving DecidableEq, Repr

section

variable (ctx : ReservationVisibilityContext) (bookedBy : Nat → Option Nat)

/-- `bookedBy` is the column `booked_by_user_id`. -/
def findByIdOrThrow (db : BookingDb) (id : Nat) : Except ReservationError Projection :=
  match primarySlot db id, db.bookings.get? id with
  | some slot, some booking => .ok
      { reservation :=
          { id := booking.id
            requesterPersonId := booking.requesterPersonId
            attendeePersonIds := some slot.attendeePersonIds
            bookedByUserId := bookedBy booking.id }
        status := slot.status
        recurrenceSeriesId := booking.recurrenceSeriesId }
  | _, _ => .error .bookingNotFound

def skipBooking : Table.Assignment BookingRow :=
  ⟨fun b => { b with status := .cancelled, recurrenceSkipped := true }, fun _ => rfl⟩

theorem key_skippedSlot (s : SlotRow) : key ({ s with status := .cancelled } : SlotRow) = key s := rfl

def skipSlot : Table.Assignment SlotRow :=
  ⟨fun s => { s with status := .cancelled }, key_skippedSlot⟩

def skipRows (db : BookingDb) (id : Nat) : BookingDb :=
  { db with
    bookings := db.bookings.update (fun b => b.id == id) skipBooking
    slots := db.slots.update (fun s => s.bookingId == id) skipSlot }

def skipOccurrence (db : BookingDb) (id : Nat) : Except ReservationError BookingDb :=
  match findByIdOrThrow bookedBy db id with
  | .error e => .error e
  | .ok r =>
      if !canSee ctx r.reservation then .error .notVisible
      else if r.recurrenceSeriesId.isNone then .error .notARecurringOccurrence
      else .ok (skipRows db id)

/-- `cancelOne` of the service, with scope `this`. -/
def cancelOccurrence (store : BookingStore) (call : CancelCall) :
    Except ReservationError BookingStore :=
  match findByIdOrThrow bookedBy store.db call.bookingId with
  | .error e => .error e
  | .ok r =>
      if !canSee ctx r.reservation then .error .notVisible
      else if !canEdit ctx r.reservation then .error .notEditable
      else if r.status = .cancelled then .ok store
      else if r.status = .completed then .error .completed
      else match cancelBookingWithCascade store call with
        | .error e => .error (.cancel e)
        | .ok (store', _) => .ok store'

/-! ## The law -/

/-- The tables are the same up to the mark of a skip and the window for a restore. -/
structure SameEnd (db db' : BookingDb) : Prop where
  bookings : db.bookings.rows.map (fun b => { b with recurrenceSkipped := false }) =
    db'.bookings.rows.map fun b => { b with recurrenceSkipped := false }
  slots : db.slots.rows.map (fun s => { s with cancellationGraceUntil := none }) =
    db'.slots.rows.map fun s => { s with cancellationGraceUntil := none }
  orderLineItems : db.orderLineItems = db'.orderLineItems
  workOrders : db.workOrders = db'.workOrders
  assetReservations : db.assetReservations = db'.assetReservations
  approvals : db.approvals = db'.approvals

/-- The request is for this occurrence and new, and its actor is known. -/
structure FreshCancel (store : BookingStore) (call : CancelCall) : Prop where
  scope : call.scope = some "this"
  key : call.idempotencyKey ≠ ""
  unused : store.operations.get? call.idempotencyKey = none
  actor : ∀ uid, call.actorUserId = some uid → (call.env.userOf uid).isSome = true

/-- A skip succeeds only where the cancellation does, and leaves what it leaves. -/
def SkipLaw (store : BookingStore) (call : CancelCall) : Prop :=
  ∀ db', skipOccurrence ctx bookedBy store.db call.bookingId = .ok db' →
    ∃ store', cancelOccurrence ctx bookedBy store call = .ok store' ∧ SameEnd db' store'.db

/-- The cascade finds nothing to end but the booking and its slots, none of which ended before. -/
structure NothingAttached (db : BookingDb) (id : Nat) : Prop where
  slots : ∀ s ∈ db.slots.rows, s.bookingId = id → s.status ≠ .completed ∧ s.status ≠ .released
  lines : ∀ l ∈ db.orderLineItems.rows, cancellableLine db id l = true →
    l.fulfillmentStatus = .cancelled ∧ l.pendingSetupTriggerArgs = none
  workOrders : ∀ w ∈ db.workOrders.rows, closableWorkOrder db id w = false
  assetReservations : ∀ r ∈ db.assetReservations.rows, heldAsset id r = false
  approvals : ∀ r ∈ db.approvals.rows, pendingAbout id r = false

def AllCancelled (db : BookingDb) (id : Nat) : Prop :=
  db.status? id = some .cancelled ∧ ∀ s ∈ db.slots.rows, s.bookingId = id → s.status = .cancelled

/-- The events of the cancellation do not contradict those of an earlier one. -/
def CanAnnounce (db : BookingDb) (call : CancelCall) : Prop :=
  ∃ outbox, emitAll db.outbox (cancelEvents call call.bookingId) = .ok outbox

/-- An actor who sees the occurrence may edit it, and it is cancelled altogether, or else has nothing
attached and can be announced. -/
def SkipsSafely (db : BookingDb) (call : CancelCall) : Prop :=
  ∀ r, findByIdOrThrow bookedBy db call.bookingId = .ok r → canSee ctx r.reservation = true →
    r.recurrenceSeriesId ≠ none → canEdit ctx r.reservation = true ∧ r.status ≠ .completed ∧
      if r.status = .cancelled then AllCancelled db call.bookingId
      else db.status? call.bookingId ≠ some .cancelled ∧ CanAnnounce db call ∧
        NothingAttached db call.bookingId

end

/-! ## The two ends -/

section

variable {ρ κ : Type} [Keyed ρ κ] {t : Table ρ} {p q : ρ → Bool} {f g : Table.Assignment ρ}

theorem update_eq_self_iff : t = t.update p f ↔ ∀ r ∈ t.rows, p r = true → f.apply r = r := by
  constructor
  · intro h r hr hp
    have hsame := congrArg Table.rows h
    have hid : t.rows.map id = t.rows.map (Table.updated p f) := by
      rw [List.map_id]
      exact hsame
    have hrow := List.map_inj_left.mp hid r hr
    rw [Table.updated_of_true hp] at hrow
    exact hrow.symm
  · intro h
    apply Table.ext
    show t.rows = t.rows.map (Table.updated p f)
    rw [List.map_congr_left (g := id), List.map_id]
    intro r hr
    unfold Table.updated
    split
    · rename_i hp
      exact h r hr hp
    · rfl

theorem map_update_eq_iff {α : Type} {e : ρ → α} :
    (t.update p f).rows.map e = (t.update q g).rows.map e ↔
      ∀ r ∈ t.rows, e (Table.updated p f r) = e (Table.updated q g r) := by
  show (t.rows.map _).map e = (t.rows.map _).map e ↔ _
  rw [List.map_map, List.map_map, List.map_inj_left]
  rfl

theorem map_update_eq_self_iff {α : Type} {e : ρ → α} :
    (t.update p f).rows.map e = t.rows.map e ↔
      ∀ r ∈ t.rows, p r = true → e (f.apply r) = e r := by
  show (t.rows.map _).map e = _ ↔ _
  rw [List.map_map, List.map_inj_left]
  refine forall₂_congr fun r _ => ?_
  show e (Table.updated p f r) = e r ↔ _
  unfold Table.updated
  split
  · rename_i hp
    exact ⟨fun h _ => h, fun h => h hp⟩
  · rename_i hp
    exact iff_of_true rfl fun h => absurd h hp

end

section

variable {ctx : ReservationVisibilityContext} {bookedBy : Nat → Option Nat} {db : BookingDb}
  {store : BookingStore} {call : CancelCall} {id : Nat} {P : BookingDb → Prop}

theorem sameEnd_self_iff {pivot : BookingRow} (hpivot : db.bookings.get? id = some pivot) :
    SameEnd (skipRows db id) db ↔ AllCancelled db id := by
  have hbookings : (skipRows db id).bookings.rows.map
      (fun b => { b with recurrenceSkipped := false }) =
        db.bookings.rows.map (fun b => { b with recurrenceSkipped := false }) ↔
          db.status? id = some .cancelled := by
    refine map_update_eq_self_iff.trans ?_
    unfold BookingDb.status?
    rw [hpivot, Option.map_some, Option.some.injEq]
    obtain ⟨hmem, hid⟩ := Table.get?_eq_some.mp hpivot
    constructor
    · intro h
      have hrow := h pivot hmem (beq_iff_eq.mpr hid)
      exact (congrArg BookingRow.status hrow).symm
    · intro h b hb hbid
      obtain rfl := db.bookings.eq_of_key_eq hb hmem ((beq_iff_eq.mp hbid).trans hid.symm)
      show ({ b with status := .cancelled, recurrenceSkipped := false } : BookingRow) = _
      rw [← h]
  have hslots : (skipRows db id).slots.rows.map
      (fun s => { s with cancellationGraceUntil := none }) =
        db.slots.rows.map (fun s => { s with cancellationGraceUntil := none }) ↔
          ∀ s ∈ db.slots.rows, s.bookingId = id → s.status = .cancelled := by
    refine map_update_eq_self_iff.trans (forall₂_congr fun s _ => ?_)
    rw [beq_iff_eq]
    refine imp_congr_right fun _ => ?_
    constructor
    · intro h
      exact (congrArg SlotRow.status h).symm
    · intro h
      show ({ s with status := .cancelled, cancellationGraceUntil := none } : SlotRow) = _
      rw [← h]
  constructor
  · exact fun h => ⟨hbookings.mp h.bookings, hslots.mp h.slots⟩
  · exact fun h => ⟨hbookings.mpr h.1, hslots.mpr h.2, rfl, rfl, rfl, rfl⟩

theorem sameEnd_cancelRows_iff : SameEnd (skipRows db id) (cancelRows call db id) ↔
    NothingAttached db id := by
  have hbookings : (skipRows db id).bookings.rows.map
      (fun b => { b with recurrenceSkipped := false }) =
        (cancelRows call db id).bookings.rows.map fun b => { b with recurrenceSkipped := false } := by
    refine map_update_eq_iff.mpr fun b _ => ?_
    unfold Table.updated
    split <;> rfl
  have hslots : (skipRows db id).slots.rows.map
      (fun s => { s with cancellationGraceUntil := none }) =
        (cancelRows call db id).slots.rows.map (fun s => { s with cancellationGraceUntil := none }) ↔
          ∀ s ∈ db.slots.rows, s.bookingId = id →
            s.status ≠ .completed ∧ s.status ≠ .released := by
    refine map_update_eq_iff.trans (forall₂_congr fun s _ => ?_)
    unfold Table.updated openSlot
    by_cases hid : s.bookingId = id
    · simp only [hid, beq_self_eq_true, if_true, Bool.true_and, forall_true_left]
      obtain ⟨_, _, _, _, _, _, _, status⟩ := s
      cases status <;> simp [skipSlot, cancelSlot, BookingStatus.terminal]
    · simp [hid]
  have hlines : db.orderLineItems = (cancelRows call db id).orderLineItems ↔
      ∀ l ∈ db.orderLineItems.rows, cancellableLine db id l = true →
        l.fulfillmentStatus = .cancelled ∧ l.pendingSetupTriggerArgs = none := by
    refine update_eq_self_iff.trans (forall₃_congr fun l _ _ => ?_)
    constructor
    · intro h
      exact ⟨(congrArg OrderLineItem.fulfillmentStatus h).symm,
        (congrArg OrderLineItem.pendingSetupTriggerArgs h).symm⟩
    · rintro ⟨hstatus, hargs⟩
      show ({ l with fulfillmentStatus := .cancelled, pendingSetupTriggerArgs := none } :
        OrderLineItem) = l
      rw [← hstatus, ← hargs]
  have hunmet : ∀ {ρ κ : Type} [Keyed ρ κ] {t : Table ρ} {p : ρ → Bool} {f : Table.Assignment ρ},
      (∀ r ∈ t.rows, p r = true → f.apply r ≠ r) →
        (t = t.update p f ↔ ∀ r ∈ t.rows, p r = false) := by
    intro ρ κ _ t p f hchanges
    refine update_eq_self_iff.trans (forall₂_congr fun r hr => ?_)
    rw [← Bool.not_eq_true]
    exact ⟨fun h hp => hchanges r hr hp (h hp), fun h hp => absurd hp h⟩
  have hworkOrders : db.workOrders = (cancelRows call db id).workOrders ↔
      ∀ w ∈ db.workOrders.rows, closableWorkOrder db id w = false := by
    refine hunmet fun w _ hclosable hsame => ?_
    have hclosed : w.statusCategory = .closed := (congrArg WorkOrderRow.statusCategory hsame).symm
    simp [closableWorkOrder, hclosed] at hclosable
  have hassets : db.assetReservations = (cancelRows call db id).assetReservations ↔
      ∀ r ∈ db.assetReservations.rows, heldAsset id r = false := by
    refine hunmet fun r _ hheld hsame => ?_
    have hcancelled : r.status = .cancelled := (congrArg AssetReservationRow.status hsame).symm
    simp [heldAsset, hcancelled] at hheld
  have happrovals : db.approvals = (cancelRows call db id).approvals ↔
      ∀ r ∈ db.approvals.rows, pendingAbout id r = false := by
    refine hunmet fun r _ hpending hsame => ?_
    have hexpired : r.status = .expired := (congrArg ApprovalRow.status hsame).symm
    simp [pendingAbout, hexpired] at hpending
  constructor
  · intro h
    exact ⟨hslots.mp h.slots, hlines.mp h.orderLineItems, hworkOrders.mp h.workOrders,
      hassets.mp h.assetReservations, happrovals.mp h.approvals⟩
  · intro h
    exact ⟨hbookings, hslots.mpr h.slots, hlines.mpr h.lines, hworkOrders.mpr h.workOrders,
      hassets.mpr h.assetReservations, happrovals.mpr h.approvals⟩

/-! ## The requests -/

theorem findByIdOrThrow_spec {r : Projection} (h : findByIdOrThrow bookedBy db id = .ok r) :
    (∃ pivot, db.bookings.get? id = some pivot) ∧
      ∃ s ∈ db.slots.rows, s.bookingId = id ∧ s.status = r.status := by
  unfold findByIdOrThrow primarySlot at h
  split at h
  · rename_i slot pivot hslot hpivot
    obtain rfl := Except.ok.inj h
    have hof := List.find?_some hslot
    exact ⟨⟨pivot, hpivot⟩, slot, List.mem_of_find?_eq_some hslot, beq_iff_eq.mp hof, rfl⟩
  · cases h

theorem sameEnd_outbox_iff {db' : BookingDb} {outbox : BookingOutbox} :
    SameEnd db { db' with outbox := outbox } ↔ SameEnd db db' := by
  constructor
  · exact fun h => ⟨h.bookings, h.slots, h.orderLineItems, h.workOrders, h.assetReservations,
      h.approvals⟩
  · exact fun h => ⟨h.bookings, h.slots, h.orderLineItems, h.workOrders, h.assetReservations,
      h.approvals⟩

theorem cancelBooking_eq_gated (h : FreshCancel store call) :
    cancelBookingWithCascade store call = cancelBookingWithCascade.gated store call .this := by
  unfold cancelBookingWithCascade
  rw [if_neg h.key, h.scope]
  have hscope : parseScope (some "this") = some .this := rfl
  simp only [hscope]
  cases hactor : call.actorUserId with
  | none => rfl
  | some uid =>
    have hknown := h.actor uid hactor
    simp only [Option.isNone_iff_eq_none, Option.isSome_iff_ne_none.mp hknown, if_false]

theorem cancelBooking_fresh (h : FreshCancel store call) :
    (∃ store' result, cancelBookingWithCascade store call = .ok (store', result) ∧ P store'.db) ↔
      ∃ store' result, cancelFresh call .this store = .ok (store', result) ∧ P store'.db := by
  rw [cancelBooking_eq_gated h]
  unfold cancelBookingWithCascade.gated
  rw [gate_eq_proceed.mpr h.unused]
  cases cancelFresh call .this store with
  | error e => simp
  | ok after =>
    obtain ⟨after, result⟩ := after
    simp

theorem cancelFresh_this {pivot : BookingRow}
    (hpivot : store.db.bookings.get? call.bookingId = some pivot) :
    (∃ store' result, cancelFresh call .this store = .ok (store', result) ∧ P store'.db) ↔
      if pivot.status = .cancelled then P store.db
      else ∃ outbox, emitAll store.db.outbox (cancelEvents call call.bookingId) = .ok outbox ∧
        P { cancelRows call store.db call.bookingId with outbox := outbox } := by
  have hid : pivot.id = call.bookingId := (Table.get?_eq_some.mp hpivot).2
  unfold cancelFresh
  rw [hpivot]
  by_cases hcancelled : pivot.status = .cancelled
  · simp [hcancelled]
  · simp only [hcancelled, if_false, cancelSet, hid, List.foldlM_cons, List.foldlM_nil, cancelOne]
    cases emitAll store.db.outbox (cancelEvents call call.bookingId) with
    | error e => simp [bind, Except.bind]
    | ok outbox => simp [bind, Except.bind, pure, Except.pure]

/-- A skip is a cancellation exactly for an actor who may edit an occurrence with nothing
attached. -/
theorem skipLaw_iff (h : FreshCancel store call) :
    SkipLaw ctx bookedBy store call ↔ SkipsSafely ctx bookedBy store.db call := by
  unfold SkipLaw SkipsSafely skipOccurrence cancelOccurrence
  cases hfind : findByIdOrThrow bookedBy store.db call.bookingId with
  | error e => exact iff_of_true (fun _ h => by cases h) (fun _ h => by cases h)
  | ok r =>
    obtain ⟨⟨pivot, hpivot⟩, slot, hslot, hslotOf, hslotStatus⟩ := findByIdOrThrow_spec hfind
    have hpivotStatus : store.db.status? call.bookingId = some pivot.status := by
      unfold BookingDb.status?
      rw [hpivot, Option.map_some]
    simp only [Except.ok.injEq, forall_eq']
    by_cases hsee : canSee ctx r.reservation = true
    swap
    · simp [hsee]
    by_cases hseries : r.recurrenceSeriesId = none
    · simp [hsee, hseries]
    simp only [hsee, Bool.not_true, Bool.false_eq_true, if_false, Option.isNone_iff_eq_none, hseries,
      Except.ok.injEq, forall_eq', forall_true_left, ne_eq, not_false_eq_true]
    by_cases hedit : canEdit ctx r.reservation = true
    swap
    · simp [hedit]
    simp only [hedit, Bool.not_true, Bool.false_eq_true, if_false, true_and]
    by_cases hcancelled : r.status = .cancelled
    · simp only [hcancelled, if_true, Except.ok.injEq, exists_eq_left', reduceCtorEq,
        not_false_eq_true, true_and]
      exact sameEnd_self_iff hpivot
    by_cases hcompleted : r.status = .completed
    · simp [hcompleted]
    simp only [hcancelled, hcompleted, if_false, not_false_eq_true, true_and, hpivotStatus,
      Option.some.injEq]
    -- From here on the skip is compared with what the cascade leaves.
    have hcascade : (∃ store', (match cancelBookingWithCascade store call with
          | .error e => .error (.cancel e)
          | .ok (store', _) => .ok store' : Except ReservationError BookingStore) = .ok store' ∧
        SameEnd (skipRows store.db call.bookingId) store'.db) ↔
          ∃ store' result, cancelBookingWithCascade store call = .ok (store', result) ∧
            SameEnd (skipRows store.db call.bookingId) store'.db := by
      cases cancelBookingWithCascade store call with
      | error e => simp
      | ok after =>
        obtain ⟨after, result⟩ := after
        simp
    rw [hcascade, cancelBooking_fresh h (P := SameEnd (skipRows store.db call.bookingId)),
      cancelFresh_this hpivot]
    by_cases hended : pivot.status = .cancelled
    · -- The cascade answers at once, and the first slot stays as it is.
      simp only [hended, if_true, not_true, false_and, iff_false]
      intro hsame
      have hall := ((sameEnd_self_iff hpivot).mp hsame).2 slot hslot hslotOf
      exact hcancelled (hslotStatus.symm.trans hall)
    · simp only [hended, if_false, not_false_eq_true, true_and, CanAnnounce, sameEnd_outbox_iff,
        sameEnd_cancelRows_iff, exists_and_right]

end

/-! ## An occurrence with one line -/

/-- The confirmed booking of a series, with one order of one line. -/
def oneLineOccurrence (status : FulfillmentStatus) : BookingStore where
  db :=
    { (oneLineStore status).db with
      bookings := Table.empty.put
        { id := 1, status := .confirmed, locationId := 1, startAt := 0, endAt := 60,
          recurrenceSeriesId := some 3 } }

def cancelOneOccurrence : CancelCall :=
  { cancelOneLine with scope := some "this" }

def administrator : ReservationVisibilityContext where
  userId := none
  personId := none
  hasReadAll := false
  hasWriteAll := false
  hasAdmin := true

theorem cancelOneOccurrence_fresh (status : FulfillmentStatus) :
    FreshCancel (oneLineOccurrence status) cancelOneOccurrence where
  scope := rfl
  key := by decide
  unused := rfl
  actor := fun _ h => by cases h

/-- A line that the kitchen has taken up survives a cancellation. -/
theorem skipLaw_confirmedLine :
    SkipLaw administrator (fun _ => none) (oneLineOccurrence .confirmed) cancelOneOccurrence := by
  refine (skipLaw_iff (cancelOneOccurrence_fresh .confirmed)).mpr fun r hr _ _ => ?_
  obtain rfl := Except.ok.inj (show Except.ok _ = _ from hr)
  refine ⟨rfl, by decide, ?_⟩
  rw [if_neg (by decide)]
  refine ⟨by decide, ⟨_, rfl⟩, ?_, ?_, ?_, ?_, ?_⟩
  · intro s hs _
    obtain rfl := List.mem_singleton.mp (show s ∈ [_] from hs)
    decide
  · intro l hl hfree
    obtain rfl := List.mem_singleton.mp (show l ∈ [_] from hl)
    exact absurd hfree (by decide)
  · exact fun w hw => absurd hw List.not_mem_nil
  · exact fun r hr => absurd hr List.not_mem_nil
  · exact fun r hr => absurd hr List.not_mem_nil

/-- A line that is still ordered survives a skip, not a cancellation. -/
theorem orderedLine_notSkipLaw :
    ¬SkipLaw administrator (fun _ => none) (oneLineOccurrence .ordered) cancelOneOccurrence := by
  intro hlaw
  obtain ⟨store', hcancel, hsame⟩ := hlaw _ rfl
  obtain rfl := Except.ok.inj (show Except.ok _ = _ from hcancel)
  exact absurd hsame.orderLineItems (by decide)

end Prequest.Booking
