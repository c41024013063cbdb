import Prequest.Booking.CancelLines

/-!
# The approvals of cancelled lines

The scope of an approval names entities: the booking, orders, lines, work orders,
asset reservations. A cancellation of lines ends some of them, and an approval
should expire when it was asked for one of these and no other entity of its scope is
live. The function asks something else: whether the lists of ids are empty once the
cancelled lines, work orders and asset reservations are struck out. A room approval has
empty lists from the start.
-/

namespace Prequest.Booking

open Prequest.Lib Prequest.Outbox Prequest.Approval Prequest.Command

/-! ## Entities -/

/-- What the lists of a scope name. A reservation is a booking. -/
inductive Entity where
  | reservation (id : Nat)
  | order (id : Nat)
  | line (id : Nat)
  | ticket (id : Nat)
  | asset (id : Nat)
  deriving DecidableEq, Repr

def Names (s : ScopeBreakdown) : Entity → Prop
  | .reservation id => id ∈ s.reservationIds
  | .order id => id ∈ s.orderIds
  | .line id => id ∈ s.orderLineItemIds
  | .ticket id => id ∈ s.ticketIds
  | .asset id => id ∈ s.assetReservationIds

def OrderStatus.IsOpen (s : OrderStatus) : Prop := s ≠ .cancelled ∧ s ≠ .fulfilled

def WorkOrderCategory.IsOpen (s : WorkOrderCategory) : Prop := s ≠ .resolved ∧ s ≠ .closed

def BookingDb.Live (db : BookingDb) : Entity → Prop
  | .reservation id => db.bookings.Has id fun r => r.status.terminal = false
  | .order id => db.orders.Has id fun o => o.status.IsOpen
  | .line id => db.orderLineItems.Has id fun l => l.fulfillmentStatus ≠ .cancelled
  | .ticket id => db.workOrders.Has id fun w => w.statusCategory.IsOpen
  | .asset id => db.assetReservations.Has id fun r => r.status = .confirmed

/-- The rows that the writes of a call go to. -/
def CancelLinesCall.Cancels (call : CancelLinesCall) (db : BookingDb) : Entity → Prop
  | .reservation id =>
      db.bookings.Has id fun r => (call.closesBooking db && r.id == call.bookingId) = true
  | .order id => db.orders.Has id fun o => call.emptiesOrder db o = true
  | .line id => db.orderLineItems.Has id fun l => call.takes db l = true
  | .ticket id => db.workOrders.Has id fun w => call.closesTicket db w = true
  | .asset id => db.assetReservations.Has id fun r => call.freesAsset db r = true

/-- The ids that are struck out of a scope are those of lines, work orders and asset
reservations. -/
def CancelLinesCall.Strikes (call : CancelLinesCall) (db : BookingDb) (e : Entity) : Prop :=
  call.Cancels db e ∧
    match e with
    | .reservation _ | .order _ => False
    | _ => True

section

variable {call : CancelLinesCall} {db db' : BookingDb} {outbox : BookingOutbox}

theorem live_after (h : db' = { cancelLinesRows call db with outbox := outbox }) (e : Entity) :
    db'.Live e ↔ db.Live e ∧ ¬call.Cancels db e := by
  subst h
  cases e with
  | reservation id => exact Table.has_update_iff fun r => by simp [BookingStatus.terminal]
  | order id => exact Table.has_update_iff fun o h => h.1 rfl
  | line id => exact Table.has_update_iff fun l h => h rfl
  | ticket id => exact Table.has_update_iff fun w h => h.2 rfl
  | asset id => exact Table.has_update_iff fun r => by simp

variable {id : Nat}

theorem mem_cancellableIds : id ∈ call.cancellableIds db ↔ call.Cancels db (.line id) := by
  have hmem : id ∈ (db.orderLineItems.rows.filter (call.takes db)).map OrderLineItem.id ↔
      call.Cancels db (.line id) := by
    simp only [List.mem_map, List.mem_filter, CancelLinesCall.Cancels, Table.Has]
    constructor
    · rintro ⟨l, ⟨hl, htakes⟩, rfl⟩
      exact ⟨l, hl, rfl, htakes⟩
    · rintro ⟨l, hl, rfl, htakes⟩
      exact ⟨l, ⟨hl, htakes⟩, rfl⟩
  simp only [CancelLinesCall.cancellableIds]
  split
  · rw [List.mem_insertionSort]
    exact hmem
  · exact hmem

theorem mem_ticketIds : id ∈ call.ticketIds db ↔ call.Cancels db (.ticket id) := by
  simp only [CancelLinesCall.ticketIds, List.mem_map, List.mem_filter, CancelLinesCall.Cancels,
    Table.Has]
  constructor
  · rintro ⟨w, ⟨hw, hcloses⟩, rfl⟩
    exact ⟨w, hw, rfl, hcloses⟩
  · rintro ⟨w, hw, rfl, hcloses⟩
    exact ⟨w, ⟨hw, hcloses⟩, rfl⟩

theorem mem_assetReservationIds :
    id ∈ call.assetReservationIds db ↔ call.Cancels db (.asset id) := by
  simp only [CancelLinesCall.assetReservationIds, List.mem_map, List.mem_filter,
    CancelLinesCall.Cancels, Table.Has]
  constructor
  · rintro ⟨r, ⟨hr, hfrees⟩, rfl⟩
    exact ⟨r, hr, rfl, hfrees⟩
  · rintro ⟨r, hr, rfl, hfrees⟩
    exact ⟨r, ⟨hr, hfrees⟩, rfl⟩

variable {s : ScopeBreakdown}

theorem covers_iff : s.covers = true ↔ ∃ e, Names s e := by
  have hlist : ∀ ids : List Nat, (!ids.isEmpty) = true ↔ ∃ id, id ∈ ids := by
    intro ids
    cases ids with
    | nil => simp
    | cons id ids => simp
  simp only [ScopeBreakdown.covers, Bool.or_eq_true, hlist]
  constructor
  · rintro ((((⟨id, h⟩ | ⟨id, h⟩) | ⟨id, h⟩) | ⟨id, h⟩) | ⟨id, h⟩)
    · exact ⟨.reservation id, h⟩
    · exact ⟨.order id, h⟩
    · exact ⟨.line id, h⟩
    · exact ⟨.ticket id, h⟩
    · exact ⟨.asset id, h⟩
  · rintro ⟨e, h⟩
    cases e with
    | reservation id => exact .inl (.inl (.inl (.inl ⟨id, h⟩)))
    | order id => exact .inl (.inl (.inl (.inr ⟨id, h⟩)))
    | line id => exact .inl (.inl (.inr ⟨id, h⟩))
    | ticket id => exact .inl (.inr ⟨id, h⟩)
    | asset id => exact .inr ⟨id, h⟩

theorem names_newScope {e : Entity} :
    Names (call.newScope db s) e ↔ Names s e ∧ ¬call.Strikes db e := by
  unfold CancelLinesCall.Strikes
  cases e <;>
    simp [Names, CancelLinesCall.newScope, narrowed, mem_cancellableIds, mem_ticketIds,
      mem_assetReservationIds]

theorem covers_newScope :
    (call.newScope db s).covers = true ↔ ∃ e, Names s e ∧ ¬call.Strikes db e := by
  rw [covers_iff]
  exact exists_congr fun e => names_newScope

end

/-! ## The law -/

def NamesCancelled (db db' : BookingDb) (s : ScopeBreakdown) : Prop :=
  ∃ e, Names s e ∧ db.Live e ∧ ¬db'.Live e

def NamesLive (db : BookingDb) (s : ScopeBreakdown) : Prop := ∃ e, Names s e ∧ db.Live e

structure NarrowsApprovals (call : CancelLinesCall) (db db' : BookingDb) : Prop where
  expires : ∀ r ∈ db.approvals.rows, call.pendingOn r = true → ∀ r' ∈ db'.approvals.rows,
    r'.id = r.id →
      (r'.status = .expired ↔
        NamesCancelled db db' r.scopeBreakdown ∧ ¬NamesLive db' r.scopeBreakdown)
  unchanged : ∀ r ∈ db.approvals.rows, ¬NamesCancelled db db' r.scopeBreakdown →
    r ∈ db'.approvals.rows
  lines : ∀ l ∈ db.orderLineItems.rows, l.fulfillmentStatus = .cancelled ∨ l.isFree = false →
    l ∈ db'.orderLineItems.rows

structure NothingLiveOn (bookingId : Nat) (db : BookingDb) : Prop where
  slots : ∀ s ∈ db.slots.rows, s.bookingId = bookingId → s.status.terminal = true
  approvals : ∀ r ∈ db.approvals.rows, r.targetEntityId = bookingId → r.status ≠ .pending
  orders : ∀ o ∈ db.orders.rows, o.bookingId = some bookingId → ¬o.status.IsOpen
  lines : ∀ l ∈ db.orderLineItems.rows, hasOrder db bookingId l.orderId = true →
    l.fulfillmentStatus = .cancelled
  workOrders : ∀ w ∈ db.workOrders.rows, w.bookingId = some bookingId → ¬w.statusCategory.IsOpen
  assetReservations : ∀ r ∈ db.assetReservations.rows, r.bookingId = some bookingId →
    r.status ≠ .confirmed

def BookingResult.cancelledLineIds : BookingResult → List Nat
  | .linesCancelled ids _ _ _ _ _ _ _ => ids
  | _ => []

def BookingResult.bookingCancelled : BookingResult → Bool
  | .linesCancelled _ _ _ _ _ closed _ _ => closed
  | _ => false

/-- A call counts the live lines it cancelled, and closes a live booking that has nothing left. -/
structure ReportsCancelled (call : CancelLinesCall) (db db' : BookingDb) (result : BookingResult) :
    Prop where
  counted : ∀ l ∈ db.orderLineItems.rows, l.id ∈ result.cancelledLineIds →
    l.fulfillmentStatus ≠ .cancelled ∧ l.isFree = true
  closed : result.bookingCancelled = true →
    db.Live (.reservation call.bookingId) ∧ NothingLiveOn call.bookingId db'

/-! ## The condition -/

/-- What keeps a named approval open is live, and it names something. -/
structure NamedScopeFits (call : CancelLinesCall) (db : BookingDb) (s : ScopeBreakdown) : Prop where
  nonempty : ∃ e, Names s e
  survivor : (∃ e, Names s e ∧ db.Live e ∧ call.Cancels db e) →
    (∃ e, Names s e ∧ ¬call.Strikes db e) → ∃ e, Names s e ∧ db.Live e ∧ ¬call.Cancels db e

/-- The approval is about something live, all of which goes. -/
structure WholeScopeFits (call : CancelLinesCall) (db : BookingDb) (s : ScopeBreakdown) : Prop where
  cancelled : ∃ e, Names s e ∧ db.Live e ∧ call.Cancels db e
  noSurvivor : ∀ e, Names s e → db.Live e → call.Cancels db e

def ApprovalFits (call : CancelLinesCall) (db : BookingDb) (s : ScopeBreakdown) : Prop :=
  if call.lineIds.isSome then NamedScopeFits call db s else WholeScopeFits call db s

structure HangsOnLines (bookingId : Nat) (db : BookingDb) : Prop where
  booking : db.Live (.reservation bookingId)
  slots : ∀ s ∈ db.slots.rows, s.bookingId = bookingId → s.status ≠ .draft
  orders : ∀ o ∈ db.orders.rows, o.bookingId = some bookingId → o.status.IsOpen →
    ∃ l ∈ db.orderLineItems.rows, l.orderId = o.id
  workOrders : ∀ w ∈ db.workOrders.rows, w.bookingId = some bookingId → w.statusCategory.IsOpen →
    ∃ l ∈ db.orderLineItems.rows, w.linkedOrderLineItemId = some l.id ∧
      hasOrder db bookingId l.orderId = true
  assetReservations : ∀ r ∈ db.assetReservations.rows, r.bookingId = some bookingId →
    r.status = .confirmed → ∃ l ∈ db.orderLineItems.rows,
      l.linkedAssetReservationId = some r.id ∧ hasOrder db bookingId l.orderId = true

structure CancelsCleanly (call : CancelLinesCall) (db : BookingDb) : Prop where
  lines : ∀ l ∈ db.orderLineItems.rows, call.takes db l = true → l.fulfillmentStatus ≠ .cancelled
  approvals : ∀ r ∈ db.approvals.rows, call.pendingOn r = true →
    ApprovalFits call db r.scopeBreakdown
  closed : call.closesBooking db = true → HangsOnLines call.bookingId db

/-! ## One approval -/

section

variable {call : CancelLinesCall} {db db' : BookingDb} {outbox : BookingOutbox}

theorem namesCancelled_iff (h : db' = { cancelLinesRows call db with outbox := outbox })
    {s : ScopeBreakdown} :
    NamesCancelled db db' s ↔ ∃ e, Names s e ∧ db.Live e ∧ call.Cancels db e := by
  refine exists_congr fun e => and_congr_right fun _ => and_congr_right fun hlive => ?_
  rw [live_after h e]
  simp [hlive]

theorem namesLive_iff (h : db' = { cancelLinesRows call db with outbox := outbox })
    {s : ScopeBreakdown} :
    NamesLive db' s ↔ ∃ e, Names s e ∧ db.Live e ∧ ¬call.Cancels db e :=
  exists_congr fun e => and_congr_right fun _ => live_after h e

theorem approval_after (h : db' = { cancelLinesRows call db with outbox := outbox })
    {r r' : ApprovalRow} (hr : r ∈ db.approvals.rows) (hpending : call.pendingOn r = true)
    (hr' : r' ∈ db'.approvals.rows) (hid : r'.id = r.id) :
    r' = (if call.lineIds.isSome then rescope call db
      else expire call.now "Bundle cancelled; voiding approval").apply r := by
  subst h
  refine Table.eq_of_key_eq (call.approvalsAfter db) hr' ?_ (hid.trans ?_)
  · exact Table.mem_update_iff.mpr ⟨r, hr, .inl ⟨hpending, rfl⟩⟩
  · exact (Table.Assignment.key_apply _ r).symm

theorem mem_approvals_after (h : db' = { cancelLinesRows call db with outbox := outbox })
    {r : ApprovalRow} (hr : r ∈ db.approvals.rows) (hpending : call.pendingOn r = true) :
    (if call.lineIds.isSome then rescope call db
      else expire call.now "Bundle cancelled; voiding approval").apply r ∈ db'.approvals.rows := by
  subst h
  exact Table.mem_update_iff.mpr ⟨r, hr, .inl ⟨hpending, rfl⟩⟩

variable {r : ApprovalRow}

theorem rescope_of_covers (h : (call.newScope db r.scopeBreakdown).covers = true) :
    (rescope call db).apply r = { r with scopeBreakdown := call.newScope db r.scopeBreakdown } :=
  if_pos h

theorem rescope_of_not_covers (h : ¬(call.newScope db r.scopeBreakdown).covers = true) :
    (rescope call db).apply r = (expire call.now "Auto-closed after scope drop").apply r :=
  if_neg h

theorem status_of_pendingOn (h : call.pendingOn r = true) : r.status = .pending := by
  simp only [CancelLinesCall.pendingOn, Bool.and_eq_true, beq_iff_eq] at h
  exact h.2

theorem rescope_expired (hpending : r.status = .pending) :
    ((rescope call db).apply r).status = .expired ↔
      ∀ e, Names r.scopeBreakdown e → call.Strikes db e := by
  by_cases hcovers : (call.newScope db r.scopeBreakdown).covers = true
  · rw [rescope_of_covers hcovers]
    obtain ⟨e, hnames, hkept⟩ := covers_newScope.mp hcovers
    constructor
    · intro hexpired
      rw [show r.status = .expired from hexpired] at hpending
      cases hpending
    · intro hall
      exact absurd (hall e hnames) hkept
  · rw [rescope_of_not_covers hcovers]
    refine ⟨fun _ e hnames => ?_, fun _ => rfl⟩
    by_contra hkept
    exact hcovers (covers_newScope.mpr ⟨e, hnames, hkept⟩)

theorem newScope_eq_self {s : ScopeBreakdown} (h : ∀ e, Names s e → ¬call.Strikes db e) :
    call.newScope db s = s := by
  have hlines : s.orderLineItemIds.filter (fun id => !(call.cancellableIds db).contains id) =
      s.orderLineItemIds := by
    refine List.filter_eq_self.mpr fun id hid => ?_
    have hkept := h (.line id) hid
    simp only [CancelLinesCall.Strikes, and_true, ← mem_cancellableIds] at hkept
    simp [hkept]
  have htickets : s.ticketIds.filter (fun id => !(call.ticketIds db).contains id) =
      s.ticketIds := by
    refine List.filter_eq_self.mpr fun id hid => ?_
    have hkept := h (.ticket id) hid
    simp only [CancelLinesCall.Strikes, and_true, ← mem_ticketIds] at hkept
    simp [hkept]
  have hassets : s.assetReservationIds.filter
      (fun id => !(call.assetReservationIds db).contains id) = s.assetReservationIds := by
    refine List.filter_eq_self.mpr fun id hid => ?_
    have hkept := h (.asset id) hid
    simp only [CancelLinesCall.Strikes, and_true, ← mem_assetReservationIds] at hkept
    simp [hkept]
  unfold CancelLinesCall.newScope narrowed
  rw [hlines, htickets, hassets]

theorem live_of_strikes
    (hlines : ∀ l ∈ db.orderLineItems.rows, call.takes db l = true → l.fulfillmentStatus ≠ .cancelled)
    {e : Entity} (h : call.Strikes db e) : db.Live e := by
  obtain ⟨hcancels, hkind⟩ := h
  cases e with
  | reservation id => exact hkind.elim
  | order id => exact hkind.elim
  | line id =>
    obtain ⟨l, hl, hid, htakes⟩ := hcancels
    exact ⟨l, hl, hid, hlines l hl htakes⟩
  | ticket id =>
    obtain ⟨w, hw, hid, hcloses⟩ := hcancels
    refine ⟨w, hw, hid, ?_⟩
    simp only [CancelLinesCall.closesTicket, Bool.and_eq_true] at hcloses
    constructor
    · intro hresolved
      rw [hresolved] at hcloses
      cases hcloses.2
    · intro hclosed
      rw [hclosed] at hcloses
      cases hcloses.2
  | asset id =>
    obtain ⟨r, hr, hid, hfrees⟩ := hcancels
    simp only [CancelLinesCall.freesAsset, Bool.and_eq_true, beq_iff_eq] at hfrees
    exact ⟨r, hr, hid, hfrees.1⟩

/-- The law for one pending approval. -/
def NarrowsOne (db db' : BookingDb) (r : ApprovalRow) : Prop :=
  (∀ r' ∈ db'.approvals.rows, r'.id = r.id →
    (r'.status = .expired ↔
      NamesCancelled db db' r.scopeBreakdown ∧ ¬NamesLive db' r.scopeBreakdown)) ∧
  (¬NamesCancelled db db' r.scopeBreakdown → r ∈ db'.approvals.rows)

theorem narrowsOne_named (h : db' = { cancelLinesRows call db with outbox := outbox })
    (hnamed : call.lineIds.isSome = true)
    (hlines : ∀ l ∈ db.orderLineItems.rows, call.takes db l = true → l.fulfillmentStatus ≠ .cancelled)
    {r : ApprovalRow} (hr : r ∈ db.approvals.rows) (hpending : call.pendingOn r = true) :
    NarrowsOne db db' r ↔ NamedScopeFits call db r.scopeBreakdown := by
  have hstatus := status_of_pendingOn hpending
  have hafter : (rescope call db).apply r ∈ db'.approvals.rows := by
    have hmem := mem_approvals_after h hr hpending
    rwa [if_pos hnamed] at hmem
  have hid : ((rescope call db).apply r).id = r.id := (rescope call db).key_apply r
  constructor
  · rintro ⟨hexpires, hunchanged⟩
    constructor
    · by_contra hempty
      have hnone : ¬NamesCancelled db db' r.scopeBreakdown :=
        fun ⟨e, hnames, _⟩ => hempty ⟨e, hnames⟩
      have hexpired : ((rescope call db).apply r).status = .expired :=
        (rescope_expired hstatus).mpr fun e hnames => absurd ⟨e, hnames⟩ hempty
      exact hnone ((hexpires _ hafter hid).mp hexpired).1
    · rintro hcancelled ⟨e, hnames, hkept⟩
      by_contra hnot
      have hexpired := (hexpires _ hafter hid).mpr
        ⟨(namesCancelled_iff h).mpr hcancelled, fun hlive => hnot ((namesLive_iff h).mp hlive)⟩
      exact hkept ((rescope_expired hstatus).mp hexpired e hnames)
  · rintro ⟨⟨e₀, hnames₀⟩, hsurvivor⟩
    refine ⟨fun r' hr' hid' => ?_, fun hnone => ?_⟩
    · have hr'_eq := approval_after h hr hpending hr' hid'
      rw [if_pos hnamed] at hr'_eq
      rw [hr'_eq, rescope_expired hstatus, namesCancelled_iff h, namesLive_iff h]
      constructor
      · intro hall
        refine ⟨⟨e₀, hnames₀, live_of_strikes hlines (hall e₀ hnames₀), (hall e₀ hnames₀).1⟩, ?_⟩
        rintro ⟨e, hnames, _, hnot⟩
        exact hnot (hall e hnames).1
      · rintro ⟨hcancelled, hnolive⟩ e hnames
        by_contra hkept
        exact hnolive (hsurvivor hcancelled ⟨e, hnames, hkept⟩)
    · rw [namesCancelled_iff h] at hnone
      have hkept : ∀ e, Names r.scopeBreakdown e → ¬call.Strikes db e := by
        intro e hnames hstrikes
        exact hnone ⟨e, hnames, live_of_strikes hlines hstrikes, hstrikes.1⟩
      have hcovers : (call.newScope db r.scopeBreakdown).covers = true :=
        covers_newScope.mpr ⟨e₀, hnames₀, hkept e₀ hnames₀⟩
      rwa [rescope_of_covers hcovers, newScope_eq_self hkept] at hafter

theorem narrowsOne_whole (h : db' = { cancelLinesRows call db with outbox := outbox })
    (hwhole : ¬call.lineIds.isSome = true) {r : ApprovalRow} (hr : r ∈ db.approvals.rows)
    (hpending : call.pendingOn r = true) :
    NarrowsOne db db' r ↔ WholeScopeFits call db r.scopeBreakdown := by
  have hexpired : ∀ r' ∈ db'.approvals.rows, r'.id = r.id → r'.status = .expired := by
    intro r' hr' hid
    rw [approval_after h hr hpending hr' hid, if_neg hwhole]
    rfl
  constructor
  · rintro ⟨hexpires, hunchanged⟩
    have hafter := mem_approvals_after h hr hpending
    obtain ⟨hcancelled, hnolive⟩ := (hexpires _ hafter (Table.Assignment.key_apply _ r)).mp
      (hexpired _ hafter (Table.Assignment.key_apply _ r))
    refine ⟨(namesCancelled_iff h).mp hcancelled, fun e hnames hlive => ?_⟩
    by_contra hnot
    exact hnolive ((namesLive_iff h).mpr ⟨e, hnames, hlive, hnot⟩)
  · rintro ⟨hcancelled, hnosurvivor⟩
    refine ⟨fun r' hr' hid => ⟨fun _ => ⟨(namesCancelled_iff h).mpr hcancelled, ?_⟩, fun _ =>
      hexpired r' hr' hid⟩, fun hnone => absurd ((namesCancelled_iff h).mpr hcancelled) hnone⟩
    intro hlive
    obtain ⟨e, hnames, hlive, hnot⟩ := (namesLive_iff h).mp hlive
    exact hnot (hnosurvivor e hnames hlive)

theorem narrowsOne_iff (h : db' = { cancelLinesRows call db with outbox := outbox })
    (hlines : ∀ l ∈ db.orderLineItems.rows, call.takes db l = true → l.fulfillmentStatus ≠ .cancelled)
    {r : ApprovalRow} (hr : r ∈ db.approvals.rows) (hpending : call.pendingOn r = true) :
    NarrowsOne db db' r ↔ ApprovalFits call db r.scopeBreakdown := by
  unfold ApprovalFits
  split
  · rename_i hnamed
    exact narrowsOne_named h hnamed hlines hr hpending
  · rename_i hwhole
    exact narrowsOne_whole h hwhole hr hpending

theorem narrowsApprovals_done (h : db' = { cancelLinesRows call db with outbox := outbox })
    (hlines : ∀ l ∈ db.orderLineItems.rows,
      call.takes db l = true → l.fulfillmentStatus ≠ .cancelled) :
    NarrowsApprovals call db db' ↔ ∀ r ∈ db.approvals.rows, call.pendingOn r = true →
      ApprovalFits call db r.scopeBreakdown := by
  constructor
  · intro hlaw r hr hpending
    exact (narrowsOne_iff h hlines hr hpending).mp ⟨hlaw.expires r hr hpending, hlaw.unchanged r hr⟩
  · intro hfits
    constructor
    · intro r hr hpending
      exact ((narrowsOne_iff h hlines hr hpending).mpr (hfits r hr hpending)).1
    · intro r hr hnone
      by_cases hpending : call.pendingOn r = true
      · exact ((narrowsOne_iff h hlines hr hpending).mpr (hfits r hr hpending)).2 hnone
      · subst h
        exact mem_update_of_not hr hpending
    · intro l hl hdead
      subst h
      refine mem_update_of_not hl fun htakes => ?_
      rcases hdead with hcancelled | htaken
      · exact hlines l hl htakes hcancelled
      · simp only [CancelLinesCall.takes, htaken, Bool.and_false, Bool.false_and,
          Bool.false_eq_true] at htakes

end

/-! ## The close -/

section

variable {call : CancelLinesCall} {db db' : BookingDb} {outbox : BookingOutbox}

theorem takes_iff_of_closes (hcloses : call.closesBooking db = true) {l : OrderLineItem}
    (hl : l ∈ db.orderLineItems.rows) :
    call.takes db l = true ↔ hasOrder db call.bookingId l.orderId = true := by
  simp only [CancelLinesCall.closesBooking, Bool.and_eq_true, List.isEmpty_iff,
    Option.isNone_iff_eq_none] at hcloses
  obtain ⟨⟨hall, hfulfilled⟩, hkeep⟩ := hcloses
  have hfree : hasOrder db call.bookingId l.orderId = true → l.isFree = true := by
    intro horder
    by_contra htaken
    have hmem : l.id ∈ call.fulfilledLineIds db := by
      simp only [CancelLinesCall.fulfilledLineIds, hall, Option.isSome_none, Bool.false_eq_true,
        if_false]
      refine List.mem_map.mpr ⟨l, List.mem_filter.mpr ⟨hl, ?_⟩, rfl⟩
      simp [CancelLinesCall.protects, horder, Bool.eq_false_iff.mpr htaken]
    rw [hfulfilled] at hmem
    cases hmem
  simp only [CancelLinesCall.takes, CancelLinesCall.isAbout, hall, hkeep, Bool.and_eq_true,
    List.contains_nil, Bool.not_false, and_true]
  exact ⟨fun h => h.1, fun horder => ⟨horder, hfree horder⟩⟩

theorem hasOrder_after (h : db' = { cancelLinesRows call db with outbox := outbox })
    (b orderId : Nat) : hasOrder db' b orderId = hasOrder db b orderId := by
  subst h
  exact hasOrder_of_update rfl (fun _ => rfl) orderId

theorem mem_lines_after (h : db' = { cancelLinesRows call db with outbox := outbox })
    {l' : OrderLineItem} (hl' : l' ∈ db'.orderLineItems.rows) :
    ∃ l ∈ db.orderLineItems.rows, l.orderId = l'.orderId ∧
      (call.takes db l = true → l'.fulfillmentStatus = .cancelled) := by
  subst h
  obtain ⟨l, hl, ⟨_, rfl⟩ | ⟨hkept, rfl⟩⟩ := Table.mem_update_iff.mp hl'
  · exact ⟨l, hl, rfl, fun _ => rfl⟩
  · exact ⟨l', hl, rfl, fun htakes => absurd htakes hkept⟩

theorem emptiesOrder_iff_of_closes (hcloses : call.closesBooking db = true) {o : OrderRow}
    (ho : o ∈ db.orders.rows) (hbooking : o.bookingId = some call.bookingId)
    (hopen : o.status.IsOpen) :
    call.emptiesOrder db o = true ↔ ∃ l ∈ db.orderLineItems.rows, l.orderId = o.id := by
  have htakes : ∀ l ∈ db.orderLineItems.rows, l.orderId = o.id → call.takes db l = true := by
    intro l hl horder
    rw [takes_iff_of_closes hcloses hl, horder]
    exact hasOrder_of_mem ho hbooking
  constructor
  · intro hempties
    simp only [CancelLinesCall.emptiesOrder, Bool.and_eq_true, List.contains_iff_mem,
      CancelLinesCall.touchedOrderIds, List.mem_eraseDups, List.mem_map, List.mem_filter] at hempties
    obtain ⟨⟨⟨⟨⟨_, l, ⟨hl, _⟩, horder⟩, _⟩, _⟩, _⟩, _⟩ := hempties
    exact ⟨l, hl, horder⟩
  · rintro ⟨l, hl, horder⟩
    have hcancelled : cancelLine.apply l ∈ (call.linesAfter db).rows :=
      Table.mem_update_iff.mpr ⟨l, hl, .inl ⟨htakes l hl horder, rfl⟩⟩
    simp only [CancelLinesCall.emptiesOrder, orderOf, hbooking, Bool.and_eq_true,
      List.contains_iff_mem, CancelLinesCall.touchedOrderIds, List.mem_eraseDups, List.mem_map,
      List.mem_filter, bne_iff_ne, List.any_eq_true, List.all_eq_true, beq_iff_eq, Bool.or_eq_true]
    refine ⟨⟨⟨⟨⟨trivial, l, ⟨hl, htakes l hl horder⟩, horder⟩, hopen.1⟩, hopen.2⟩, _, hcancelled,
      horder⟩, fun l' hl' => ?_⟩
    obtain ⟨l₁, hl₁, ⟨_, rfl⟩ | ⟨hkept, rfl⟩⟩ := Table.mem_update_iff.mp hl'
    · exact .inr rfl
    · exact .inl fun horder₁ => hkept (htakes l' hl₁ horder₁)

theorem closesTicket_iff_of_closes (hcloses : call.closesBooking db = true) {w : WorkOrderRow}
    (hopen : w.statusCategory.IsOpen) :
    call.closesTicket db w = true ↔ ∃ l ∈ db.orderLineItems.rows,
      w.linkedOrderLineItemId = some l.id ∧ hasOrder db call.bookingId l.orderId = true := by
  have hcloses_iff : call.closesTicket db w = true ↔ ∃ l ∈ db.orderLineItems.rows,
      call.takes db l = true ∧ w.linkedOrderLineItemId = some l.id := by
    unfold CancelLinesCall.closesTicket
    obtain ⟨hresolved, hclosed⟩ := hopen
    cases hw : w.statusCategory <;> simp_all
  rw [hcloses_iff]
  constructor
  · rintro ⟨l, hl, htakes, hlinked⟩
    exact ⟨l, hl, hlinked, (takes_iff_of_closes hcloses hl).mp htakes⟩
  · rintro ⟨l, hl, hlinked, horder⟩
    exact ⟨l, hl, (takes_iff_of_closes hcloses hl).mpr horder, hlinked⟩

theorem freesAsset_iff_of_closes (hcloses : call.closesBooking db = true) {r : AssetReservationRow}
    (hheld : r.status = .confirmed) :
    call.freesAsset db r = true ↔ ∃ l ∈ db.orderLineItems.rows,
      l.linkedAssetReservationId = some r.id ∧ hasOrder db call.bookingId l.orderId = true := by
  simp only [CancelLinesCall.freesAsset, Bool.and_eq_true, List.any_eq_true, beq_iff_eq, hheld,
    true_and]
  constructor
  · rintro ⟨l, hl, htakes, hlinked⟩
    exact ⟨l, hl, hlinked, (takes_iff_of_closes hcloses hl).mp htakes⟩
  · rintro ⟨l, hl, hlinked, horder⟩
    exact ⟨l, hl, (takes_iff_of_closes hcloses hl).mpr horder, hlinked⟩

theorem nothingLiveOn_iff_of_closes (h : db' = { cancelLinesRows call db with outbox := outbox })
    (hcloses : call.closesBooking db = true) :
    db.Live (.reservation call.bookingId) ∧ NothingLiveOn call.bookingId db' ↔
      HangsOnLines call.bookingId db := by
  have horders := hasOrder_after h call.bookingId
  have hwhole : ¬call.lineIds.isSome = true := by
    intro hsome
    simp only [CancelLinesCall.closesBooking, Bool.and_eq_true, Option.isNone_iff_eq_none] at hcloses
    rw [hcloses.1.1] at hsome
    cases hsome
  constructor
  · rintro ⟨hbooking, hnothing⟩
    refine ⟨hbooking, fun s hs hsb hdraft => ?_, fun o ho hob hopen => ?_, fun w hw hwb hopen => ?_,
      fun r hr hrb hheld => ?_⟩
    · subst h
      have hkept := hnothing.slots s (mem_update_of_not hs fun hclosed => ?_) hsb
      · rw [hdraft] at hkept
        cases hkept
      · simp only [CancelLinesCall.closesSlot, hdraft, Bool.and_eq_true] at hclosed
        cases hclosed.2
    · rw [← emptiesOrder_iff_of_closes hcloses ho hob hopen]
      by_contra hkept
      subst h
      exact hnothing.orders o (mem_update_of_not ho hkept) hob hopen
    · rw [← closesTicket_iff_of_closes hcloses hopen]
      by_contra hkept
      subst h
      exact hnothing.workOrders w (mem_update_of_not hw hkept) hwb hopen
    · rw [← freesAsset_iff_of_closes hcloses hheld]
      by_contra hkept
      subst h
      exact hnothing.assetReservations r (mem_update_of_not hr hkept) hrb hheld
  · rintro ⟨hbooking, hslots, hopenOrders, htickets, hassets⟩
    refine ⟨hbooking, fun s' hs' hsb => ?_, fun r' hr' hrb hpending => ?_, fun o' ho' hob hopen => ?_,
      fun l' hl' horder => ?_, fun w' hw' hwb hopen => ?_, fun r' hr' hrb hheld => ?_⟩
    · subst h
      obtain ⟨s, hs, ⟨_, rfl⟩ | ⟨hkept, rfl⟩⟩ := Table.mem_update_iff.mp hs'
      · rfl
      · have hdraft := hslots s' hs hsb
        simp only [CancelLinesCall.closesSlot, hcloses, hsb, beq_self_eq_true, Bool.true_and] at hkept
        cases hstatus : s'.status <;> simp_all [BookingStatus.blocksRoom, BookingStatus.terminal]
    · subst h
      obtain ⟨r, hr, ⟨_, rfl⟩ | ⟨hkept, rfl⟩⟩ := Table.mem_update_iff.mp hr'
      · rw [if_neg hwhole] at hpending
        cases hpending
      · exact hkept (by simp [CancelLinesCall.pendingOn, hrb, hpending])
    · subst h
      obtain ⟨o, ho, ⟨_, rfl⟩ | ⟨hkept, rfl⟩⟩ := Table.mem_update_iff.mp ho'
      · exact hopen.1 rfl
      · exact hkept ((emptiesOrder_iff_of_closes hcloses ho hob hopen).mpr
          (hopenOrders o' ho hob hopen))
    · obtain ⟨l, hl, hsame, hcancelled⟩ := mem_lines_after h hl'
      refine hcancelled ((takes_iff_of_closes hcloses hl).mpr ?_)
      rw [hsame, ← horders]
      exact horder
    · subst h
      obtain ⟨w, hw, ⟨_, rfl⟩ | ⟨hkept, rfl⟩⟩ := Table.mem_update_iff.mp hw'
      · exact hopen.2 rfl
      · exact hkept ((closesTicket_iff_of_closes hcloses hopen).mpr (htickets w' hw hwb hopen))
    · subst h
      obtain ⟨r, hr, ⟨_, rfl⟩ | ⟨hkept, rfl⟩⟩ := Table.mem_update_iff.mp hr'
      · cases hheld
      · exact hkept ((freesAsset_iff_of_closes hcloses hheld).mpr (hassets r' hr hrb hheld))

end

/-! ## A call -/

section

variable {call : CancelLinesCall} {store store' : BookingStore} {result : BookingResult}

/-- The law of a successful call. Only a call with a new key counts anything itself. -/
structure NarrowsExactly (call : CancelLinesCall) (store store' : BookingStore)
    (result : BookingResult) : Prop where
  tables : NarrowsApprovals call store.db store'.db
  report : store.operations.get? call.idempotencyKey = none →
    ReportsCancelled call store.db store'.db result

theorem narrowsApprovals_self (db : BookingDb) : NarrowsApprovals call db db where
  expires r hr hpending r' hr' hid := by
    obtain rfl := db.approvals.eq_of_key_eq hr' hr hid
    constructor
    · intro hexpired
      rw [status_of_pendingOn hpending] at hexpired
      cases hexpired
    · rintro ⟨⟨e, _, hlive, hnot⟩, _⟩
      exact absurd hlive hnot
  unchanged r hr _ := hr
  lines l hl _ := hl

theorem counted_iff {db : BookingDb} :
    (∀ l ∈ db.orderLineItems.rows, l.id ∈ (cancelLinesResult call db).cancelledLineIds →
        l.fulfillmentStatus ≠ .cancelled ∧ l.isFree = true) ↔
      ∀ l ∈ db.orderLineItems.rows, call.takes db l = true → l.fulfillmentStatus ≠ .cancelled := by
  have hcounts : ∀ l ∈ db.orderLineItems.rows,
      (l.id ∈ (cancelLinesResult call db).cancelledLineIds ↔ call.takes db l = true) := by
    intro l hl
    show l.id ∈ call.cancellableIds db ↔ _
    rw [mem_cancellableIds]
    exact ⟨fun h => h.of_mem hl, fun h => ⟨l, hl, rfl, h⟩⟩
  constructor
  · intro hcounted l hl htakes
    exact (hcounted l hl ((hcounts l hl).mpr htakes)).1
  · intro hlines l hl hmem
    have htakes := (hcounts l hl).mp hmem
    refine ⟨hlines l hl htakes, ?_⟩
    simp only [CancelLinesCall.takes, Bool.and_eq_true] at htakes
    exact htakes.1.2

/-- The law of a successful call. -/
theorem narrowsExactly_iff (h : cancelOrderLinesWithCascade store call = .ok (store', result)) :
    NarrowsExactly call store store' result ↔
      (store.operations.get? call.idempotencyKey = none → CancelsCleanly call store.db) := by
  cases cancelOrderLines_cases h with
  | cached hused hsame =>
    subst hsame
    exact ⟨fun _ hnew => absurd hnew hused, fun _ =>
      ⟨narrowsApprovals_self _, fun hnew => absurd hnew hused⟩⟩
  | done hnew hresult outbox _ hdb =>
    constructor
    · rintro ⟨htables, hreport⟩ _
      obtain ⟨hcounted, hclosed⟩ := hreport hnew
      rw [hresult] at hcounted hclosed
      have hlines := counted_iff.mp hcounted
      refine ⟨hlines, (narrowsApprovals_done hdb hlines).mp htables, fun hcloses => ?_⟩
      exact (nothingLiveOn_iff_of_closes hdb hcloses).mp (hclosed hcloses)
    · intro hcond
      obtain ⟨hlines, happrovals, hclosed⟩ := hcond hnew
      refine ⟨(narrowsApprovals_done hdb hlines).mpr happrovals, fun _ => ?_⟩
      rw [hresult]
      exact ⟨counted_iff.mpr hlines, fun hcloses =>
        (nothingLiveOn_iff_of_closes hdb hcloses).mpr (hclosed hcloses)⟩

end

/-! ## A room approval and a caterer's line -/

/-- A booking whose order has two lines, with one pending approval. -/
def approvalStore (scope : ScopeBreakdown) : BookingStore where
  db :=
    { bookings := Table.empty.put
        { id := 1, status := .pendingApproval, locationId := 1, startAt := 0, endAt := 60 }
      slots := Table.empty.put
        { id := 1, bookingId := 1, spaceId := 1, startAt := 0, endAt := 60,
          status := .pendingApproval }
      approvals := Table.empty.put
        { id := 3, targetEntityType := .booking, targetEntityId := 1, approverPersonId := some 9,
          scopeBreakdown := scope }
      orders := Table.empty.put { id := 5, bookingId := some 1, status := .submitted }
      orderLineItems := (Table.empty.put
          { id := 7, orderId := 5, fulfillmentStatus := .ordered }).put
        { id := 8, orderId := 5, fulfillmentStatus := .ordered } }

def cancelFirstLine : CancelLinesCall where
  bookingId := 1
  lineIds := some [7]
  idempotencyKey := "k"
  now := 10
  env := { userOf := fun _ => none, entityInTenant := fun _ _ => true, rules := [] }

/-- An approval of the booking and the line stays with the booking. -/
theorem narrowsExactly_planApproval :
    ∃ store' result,
      cancelOrderLinesWithCascade
          (approvalStore { reservationIds := [1], orderLineItemIds := [7] }) cancelFirstLine
        = .ok (store', result) ∧
      NarrowsExactly cancelFirstLine
        (approvalStore { reservationIds := [1], orderLineItemIds := [7] }) store' result := by
  refine ⟨_, _, rfl, (narrowsExactly_iff rfl).mpr fun _ => ⟨?_, ?_, ?_⟩⟩
  · decide
  · intro r hr _
    obtain rfl := List.mem_singleton.mp (show r ∈ [_] from hr)
    refine ⟨⟨.reservation 1, List.mem_singleton.mpr rfl⟩,
      fun _ _ => ⟨.reservation 1, List.mem_singleton.mpr rfl, ?_, ?_⟩⟩
    · exact ⟨_, List.mem_singleton.mpr rfl, rfl, rfl⟩
    · rintro ⟨b, _, _, hcloses⟩
      cases hcloses
  · intro hcloses
    cases hcloses

/-- The approval of the room expires with a line it was never asked about. -/
theorem roomApproval_expires :
    ¬ ∀ (store : BookingStore) (call : CancelLinesCall) (store' : BookingStore)
      (result : BookingResult), cancelOrderLinesWithCascade store call = .ok (store', result) →
        NarrowsExactly call store store' result := by
  intro hlaw
  have hunchanged := (hlaw (approvalStore {}) cancelFirstLine _ _ rfl).tables.unchanged
    { id := 3, targetEntityType := .booking, targetEntityId := 1, approverPersonId := some 9 }
    (by decide)
  refine absurd (hunchanged ?_) (by decide)
  rintro ⟨e, hnames, _⟩
  cases e <;> cases hnames

end Prequest.Booking
