import Prequest.Booking.Cancel

/-!
# The scope of a cancellation

What `cancel_booking_with_cascade` changes: the rows of the bookings of its
scope, and of them the live ones. Two of its statements look at the wrong rows.
The lines are rewritten whether they were cancelled before or not, so the orders
counted as touched include those that lost nothing; and the asset reservations go
by their booking alone, also those of a line that is being prepared.

* `changesScopeOnly_iff`: the law of a successful call.
-/

namespace Prequest.Booking

open Prequest.Lib Prequest.Outbox Prequest.Approval Prequest.Command Prequest.Recurrence

/-! ## The tables after the cascade -/

/-- Every table after the cascade for the bookings `ids`. -/
structure CancelsScope (call : CancelCall) (ids : List Nat) (db db' : BookingDb) : Prop where
  slots : db'.slots = db.slots.update (fun s => ids.any fun b => openSlot b s)
    (cancelSlot call.graceUntil)
  bookings : db'.bookings = db.bookings.update (fun r => ids.any fun b => r.id == b)
    ⟨fun r => { r with status := .cancelled }, fun _ => rfl⟩
  approvals : db'.approvals = db.approvals.update (fun r => ids.any fun b => pendingAbout b r)
    (expire call.now "Booking cancelled; voiding approval")
  orderLineItems : db'.orderLineItems =
    db.orderLineItems.update (fun l => ids.any fun b => cancellableLine db b l) cancelLine
  orders : db'.orders = db.orders.update (fun o => ids.any fun b => fullyCancelledOrder db b o)
    ⟨fun o => { o with status := .cancelled }, fun _ => rfl⟩
  workOrders : db'.workOrders =
    db.workOrders.update (fun w => ids.any fun b => closableWorkOrder db b w)
      ⟨fun w => { w with statusCategory := .closed, closedAt := some call.now }, fun _ => rfl⟩
  assetReservations : db'.assetReservations =
    db.assetReservations.update (fun r => ids.any fun b => heldAsset b r)
      ⟨fun r => { r with status := .cancelled }, fun _ => rfl⟩

theorem CancelsScope.nil (call : CancelCall) (db : BookingDb) : CancelsScope call [] db db where
  slots := (Table.update_eq_self fun _ _ => rfl).symm
  bookings := (Table.update_eq_self fun _ _ => rfl).symm
  approvals := (Table.update_eq_self fun _ _ => rfl).symm
  orderLineItems := (Table.update_eq_self fun _ _ => rfl).symm
  orders := (Table.update_eq_self fun _ _ => rfl).symm
  workOrders := (Table.update_eq_self fun _ _ => rfl).symm
  assetReservations := (Table.update_eq_self fun _ _ => rfl).symm

variable {ids : List Nat}

section

variable {call : CancelCall} {db db₁ : BookingDb} {bookingId b : Nat}

def hasOrder (db : BookingDb) (bookingId orderId : Nat) : Bool :=
  db.orders.rows.any fun o => o.id == orderId && orderOf bookingId o

/-- The kitchen has not taken the line up. -/
def OrderLineItem.isFree (l : OrderLineItem) : Bool :=
  match l.fulfillmentStatus with
  | .confirmed | .preparing | .delivered => false
  | _ => true

theorem cancellableLine_eq (db : BookingDb) (b : Nat) (l : OrderLineItem) :
    cancellableLine db b l = (hasOrder db b l.orderId && l.isFree) := rfl

def lineAfter (db : BookingDb) (bookingId : Nat) (l : OrderLineItem) : OrderLineItem :=
  Table.updated (cancellableLine db bookingId) cancelLine l

section

variable (l : OrderLineItem)

@[simp] theorem lineAfter_id : (lineAfter db bookingId l).id = l.id :=
  Table.key_updated _ _ l

@[simp] theorem lineAfter_orderId : (lineAfter db bookingId l).orderId = l.orderId := by
  unfold lineAfter Table.updated
  split <;> rfl

@[simp] theorem lineAfter_isFree : (lineAfter db bookingId l).isFree = l.isFree := by
  unfold lineAfter Table.updated
  split
  · rename_i h
    rw [cancellableLine_eq, Bool.and_eq_true] at h
    rw [h.2]
    rfl
  · rfl

theorem lineAfter_cancelled : (lineAfter db bookingId l).fulfillmentStatus = .cancelled ↔
      l.fulfillmentStatus = .cancelled ∨ cancellableLine db bookingId l = true := by
  unfold lineAfter Table.updated
  split
  · rename_i h
    simp [cancelLine, h]
  · rename_i h
    simp [h]

end

theorem hasOrder_of_update {db' : BookingDb} {p : OrderRow → Bool} {f : Table.Assignment OrderRow}
    (horders : db'.orders = db.orders.update p f) (hf : ∀ o, (f.apply o).bookingId = o.bookingId)
    (orderId : Nat) : hasOrder db' b orderId = hasOrder db b orderId := by
  unfold hasOrder
  rw [horders]
  show (db.orders.rows.map _).any _ = _
  rw [List.any_map]
  congr 1
  funext o
  show ((Table.updated p f o).id == orderId && orderOf b (Table.updated p f o)) = _
  unfold Table.updated
  split
  · have hid : (f.apply o).id = o.id := f.key_apply o
    rw [hid]
    unfold orderOf
    rw [hf o]
  · rfl

theorem hasOrder_cancelRows (call : CancelCall) (orderId : Nat) :
    hasOrder (cancelRows call db bookingId) b orderId = hasOrder db b orderId :=
  hasOrder_of_update rfl (fun _ => rfl) orderId

theorem cancellableLine_cancelRows (call : CancelCall) (l : OrderLineItem) :
    cancellableLine (cancelRows call db bookingId) b l = cancellableLine db b l := by
  rw [cancellableLine_eq, cancellableLine_eq, hasOrder_cancelRows]

theorem cancellableLine_lineAfter (l : OrderLineItem) :
    cancellableLine db b (lineAfter db bookingId l) = cancellableLine db b l := by
  rw [cancellableLine_eq, cancellableLine_eq, lineAfter_orderId, lineAfter_isFree]

theorem closableWorkOrder_cancelRows (call : CancelCall) (w : WorkOrderRow) :
    closableWorkOrder (cancelRows call db bookingId) b w = closableWorkOrder db b w := by
  unfold closableWorkOrder
  congr 1
  show (db.orderLineItems.rows.map (lineAfter db bookingId)).any _ = _
  rw [List.any_map]
  congr 1
  funext l
  show (w.linkedOrderLineItemId == some (lineAfter db bookingId l).id &&
    cancellableLine (cancelRows call db bookingId) b (lineAfter db bookingId l)) = _
  rw [lineAfter_id, cancellableLine_cancelRows, cancellableLine_lineAfter]

variable {o : OrderRow} {acc acc' : BookingDb × CancelCounts}

theorem hasOrder_of_mem (ho : o ∈ db.orders.rows) (hb : o.bookingId = some b) :
    hasOrder db b o.id = true := by
  refine List.any_eq_true.mpr ⟨o, ho, ?_⟩
  simp [orderOf, hb]

theorem isFree_of_cancelled {l : OrderLineItem} (h : l.fulfillmentStatus = .cancelled) :
    l.isFree = true := by
  unfold OrderLineItem.isFree
  rw [h]

theorem fullyCancelledOrder_iff (ho : o ∈ db.orders.rows) : fullyCancelledOrder db b o = true ↔
      o.bookingId = some b ∧ o.status ≠ .cancelled ∧ o.status ≠ .fulfilled ∧
        (∃ l ∈ db.orderLineItems.rows, l.orderId = o.id) ∧
          ∀ l ∈ db.orderLineItems.rows, l.orderId = o.id → l.isFree = true := by
  have hcancellable : o.bookingId = some b → ∀ l : OrderLineItem, l.orderId = o.id →
      cancellableLine db b l = l.isFree := by
    intro hb l hl
    rw [cancellableLine_eq, hl, hasOrder_of_mem ho hb, Bool.true_and]
  have hrows : (cancelledLines db b).rows = db.orderLineItems.rows.map (lineAfter db b) := rfl
  unfold fullyCancelledOrder touchedOrders
  rw [hrows]
  simp only [Bool.and_eq_true, bne_iff_ne, ne_eq, List.contains_iff_mem, List.mem_eraseDups,
    List.mem_map, List.mem_filter, List.any_map, List.any_eq_true, List.all_map, List.all_eq_true,
    Function.comp_apply, lineAfter_orderId, beq_iff_eq, Bool.or_eq_true, lineAfter_cancelled,
    orderOf]
  constructor
  · rintro ⟨⟨⟨⟨⟨hb, _⟩, hopen⟩, hunfulfilled⟩, hsome⟩, hall⟩
    refine ⟨hb, hopen, hunfulfilled, hsome, ?_⟩
    intro l hl horder
    rcases hall l hl with hother | hcancelled | hfree
    · exact absurd horder hother
    · exact isFree_of_cancelled hcancelled
    · rwa [hcancellable hb l horder] at hfree
  · rintro ⟨hb, hopen, hunfulfilled, ⟨l, hl, horder⟩, hall⟩
    refine ⟨⟨⟨⟨⟨hb, l, ⟨hl, ?_⟩, horder⟩, hopen⟩, hunfulfilled⟩, l, hl, horder⟩, ?_⟩
    · rw [hcancellable hb l horder]
      exact hall l hl horder
    · intro l' hl'
      by_cases horder' : l'.orderId = o.id
      · refine .inr (.inr ?_)
        rw [hcancellable hb l' horder']
        exact hall l' hl' horder'
      · exact .inl horder'

theorem fullyCancelledOrder_cancelRows (call : CancelCall) (ho : o ∈ db.orders.rows)
    (hkept : fullyCancelledOrder db bookingId o = false) :
    fullyCancelledOrder (cancelRows call db bookingId) b o = fullyCancelledOrder db b o := by
  have hmem : o ∈ (cancelRows call db bookingId).orders.rows :=
    Table.mem_update.mpr ⟨o, ho, Table.updated_of_false hkept⟩
  have hlines : (cancelRows call db bookingId).orderLineItems.rows
      = db.orderLineItems.rows.map (lineAfter db bookingId) := rfl
  rw [Bool.eq_iff_iff, fullyCancelledOrder_iff hmem, fullyCancelledOrder_iff ho, hlines]
  simp only [List.mem_map, exists_exists_and_eq_and, lineAfter_orderId, forall_exists_index,
    and_imp, forall_apply_eq_imp_iff₂, lineAfter_isFree]

theorem CancelsScope.cons {db' : BookingDb} (hone : cancelOne call acc bookingId = .ok acc')
    (hrest : CancelsScope call ids acc'.1 db') :
    CancelsScope call (bookingId :: ids) acc.1 db' := by
  unfold cancelOne at hone
  split at hone
  · cases hone
  obtain rfl := Except.ok.inj hone
  constructor
  · rw [hrest.slots]
    exact Table.update_update (fun s => rfl) fun s _ _ => rfl
  · rw [hrest.bookings]
    exact Table.update_update (fun r => rfl) fun r _ _ => rfl
  · rw [hrest.approvals]
    exact Table.update_update (fun r => rfl) fun r _ _ => rfl
  · rw [hrest.orderLineItems]
    refine Table.update_update (fun l => rfl) fun l _ _ => ?_
    exact congrArg (ids.any ·) (funext fun b => cancellableLine_cancelRows call l)
  · rw [hrest.orders]
    refine Table.update_update (fun o => rfl) fun o ho hkept => ?_
    exact congrArg (ids.any ·) (funext fun b => fullyCancelledOrder_cancelRows call ho hkept)
  · rw [hrest.workOrders]
    refine Table.update_update (fun w => rfl) fun w _ _ => ?_
    exact congrArg (ids.any ·) (funext fun b => closableWorkOrder_cancelRows call w)
  · rw [hrest.assetReservations]
    exact Table.update_update (fun r => rfl) fun r _ _ => rfl

theorem foldlM_cancelOne_scope (h : ids.foldlM (cancelOne call) acc = .ok acc') :
    CancelsScope call ids acc.1 acc'.1 := by
  induction ids generalizing acc with
  | nil =>
    cases h
    exact .nil call _
  | cons bookingId ids ih =>
    rw [List.foldlM_cons] at h
    cases hone : cancelOne call acc bookingId with
    | error e =>
      rw [hone] at h
      cases h
    | ok mid =>
      rw [hone] at h
      exact .cons hone (ih h)

end

/-! ## The law -/

def scopeIds (db : BookingDb) (call : CancelCall) : List Nat :=
  match db.bookings.get? call.bookingId, parseScope call.scope with
  | some pivot, some scope =>
      match cancelSet db pivot scope with
      | .ok ids => ids
      | .error _ => [pivot.id]
  | _, _ => [call.bookingId]

def OrderLineItem.IsOf (db : BookingDb) (ids : List Nat) (l : OrderLineItem) : Prop :=
  ∃ b ∈ ids, hasOrder db b l.orderId = true

/-- The bookings have no live slot, no line that the kitchen could take up, no pending approval. -/
structure NothingLive (ids : List Nat) (db : BookingDb) : Prop where
  slots : ∀ s ∈ db.slots.rows, s.bookingId ∈ ids → s.status.terminal = true
  lines : ∀ l ∈ db.orderLineItems.rows, l.IsOf db ids → l.fulfillmentStatus ≠ .ordered
  approvals : ∀ r ∈ db.approvals.rows, (∃ b ∈ ids, aboutBooking b r = true) → r.status ≠ .pending

structure KeepsOthers (ids : List Nat) (db db' : BookingDb) : Prop where
  bookings : ∀ r ∈ db.bookings.rows, r.id ∉ ids → r ∈ db'.bookings.rows
  slots : ∀ s ∈ db.slots.rows, s.bookingId ∉ ids → s ∈ db'.slots.rows
  approvals : ∀ r ∈ db.approvals.rows, (¬∃ b ∈ ids, aboutBooking b r = true) → r ∈ db'.approvals.rows
  orders : ∀ o ∈ db.orders.rows, (¬∃ b ∈ ids, o.bookingId = some b) → o ∈ db'.orders.rows
  lines : ∀ l ∈ db.orderLineItems.rows, ¬l.IsOf db ids → l ∈ db'.orderLineItems.rows
  workOrders : ∀ w ∈ db.workOrders.rows,
    (¬∃ l ∈ db.orderLineItems.rows, w.linkedOrderLineItemId = some l.id ∧ l.IsOf db ids) →
      w ∈ db'.workOrders.rows
  assetReservations : ∀ r ∈ db.assetReservations.rows, (¬∃ b ∈ ids, r.bookingId = some b) →
    r ∈ db'.assetReservations.rows

/-- An order that is cancelled lost a line to this call, and has none left. -/
def CancelsTouchedOrders (db db' : BookingDb) : Prop :=
  ∀ o ∈ db.orders.rows, ∀ o' ∈ db'.orders.rows, o'.id = o.id → o'.status = .cancelled →
    o.status ≠ .cancelled →
      (∃ l ∈ db.orderLineItems.rows, l.orderId = o.id ∧ l.fulfillmentStatus ≠ .cancelled ∧
        ∃ l' ∈ db'.orderLineItems.rows, l'.id = l.id ∧ l'.fulfillmentStatus = .cancelled) ∧
      ∀ l' ∈ db'.orderLineItems.rows, l'.orderId = o.id → l'.fulfillmentStatus = .cancelled

/-- A line that was taken up is left alone, with its work orders and its asset reservation. -/
def KeepsFulfilled (db db' : BookingDb) : Prop :=
  ∀ l ∈ db.orderLineItems.rows, l.isFree = false → l ∈ db'.orderLineItems.rows ∧
    (∀ w ∈ db.workOrders.rows, w.linkedOrderLineItemId = some l.id → w ∈ db'.workOrders.rows) ∧
    ∀ r ∈ db.assetReservations.rows, l.linkedAssetReservationId = some r.id →
      r ∈ db'.assetReservations.rows

structure ChangesScopeOnly (ids : List Nat) (db db' : BookingDb) : Prop where
  nothingLive : NothingLive ids db'
  orders : CancelsTouchedOrders db db'
  fulfilled : KeepsFulfilled db db'
  others : KeepsOthers ids db db'

/-! ## The condition -/

def RunsCascade (store : BookingStore) (call : CancelCall) : Prop :=
  ∃ scope pivot, parseScope call.scope = some scope ∧
    gate store.operations call.idempotencyKey (cancelPayload call scope) = .ok .proceed ∧
    store.db.bookings.get? call.bookingId = some pivot ∧ pivot.status ≠ .cancelled

def NoSpentOrder (ids : List Nat) (db : BookingDb) : Prop :=
  ∀ o ∈ db.orders.rows, (∃ b ∈ ids, o.bookingId = some b) → o.status ≠ .cancelled →
    o.status ≠ .fulfilled → (∃ l ∈ db.orderLineItems.rows, l.orderId = o.id) →
      ∃ l ∈ db.orderLineItems.rows, l.orderId = o.id ∧ l.fulfillmentStatus ≠ .cancelled

/-- No confirmed asset reservation of the bookings is that of a line that was taken up. -/
def NoFulfilledAsset (ids : List Nat) (db : BookingDb) : Prop :=
  ∀ r ∈ db.assetReservations.rows, (∃ b ∈ ids, r.bookingId = some b) → r.status = .confirmed →
    ∀ l ∈ db.orderLineItems.rows, l.isFree = false → l.linkedAssetReservationId ≠ some r.id

/-! ## A cascade -/

section

variable {call : CancelCall} {ids : List Nat} {db db' : BookingDb}

theorem CancelsScope.hasOrder (h : CancelsScope call ids db db') (b orderId : Nat) :
    Booking.hasOrder db' b orderId = Booking.hasOrder db b orderId := by
  unfold Booking.hasOrder
  rw [h.orders]
  show (db.orders.rows.map _).any _ = _
  rw [List.any_map]
  congr 1
  funext o
  show ((Table.updated _ _ o).id == orderId && orderOf b (Table.updated _ _ o)) = _
  unfold Table.updated
  split <;> rfl

theorem any_cancellableLine {l : OrderLineItem} :
    (ids.any fun b => cancellableLine db b l) = true ↔ l.IsOf db ids ∧ l.isFree = true := by
  simp only [List.any_eq_true, cancellableLine_eq, Bool.and_eq_true, OrderLineItem.IsOf]
  constructor
  · rintro ⟨b, hb, horder, hfree⟩
    exact ⟨⟨b, hb, horder⟩, hfree⟩
  · rintro ⟨⟨b, hb, horder⟩, hfree⟩
    exact ⟨b, hb, horder, hfree⟩

theorem CancelsScope.mem_lines (h : CancelsScope call ids db db') {l' : OrderLineItem} :
    l' ∈ db'.orderLineItems.rows ↔ ∃ l ∈ db.orderLineItems.rows,
      (l.IsOf db ids ∧ l.isFree = true ∧ l' = cancelLine.apply l) ∨
        (¬(l.IsOf db ids ∧ l.isFree = true) ∧ l' = l) := by
  rw [h.orderLineItems, Table.mem_update_iff]
  refine exists_congr fun l => and_congr_right fun _ => ?_
  rw [any_cancellableLine, and_assoc]

theorem CancelsScope.nothingLive (h : CancelsScope call ids db db') : NothingLive ids db' where
  slots s' hs' hid := by
    rw [h.slots, Table.mem_update_iff] at hs'
    obtain ⟨s, _, ⟨_, rfl⟩ | ⟨hnot, rfl⟩⟩ := hs'
    · rfl
    · by_contra hlive
      refine hnot (List.any_eq_true.mpr ⟨s'.bookingId, hid, ?_⟩)
      simp [openSlot, Bool.eq_false_iff.mpr hlive]
  lines l' hl' hof := by
    obtain ⟨l, _, hcase⟩ := h.mem_lines.mp hl'
    rcases hcase with ⟨_, _, rfl⟩ | ⟨hnot, rfl⟩
    · exact fun hordered => by cases hordered
    · intro hordered
      refine hnot ⟨?_, ?_⟩
      · obtain ⟨b, hb, horder⟩ := hof
        rw [h.hasOrder] at horder
        exact ⟨b, hb, horder⟩
      · unfold OrderLineItem.isFree
        rw [hordered]
  approvals r' hr' habout := by
    rw [h.approvals, Table.mem_update_iff] at hr'
    obtain ⟨r, _, ⟨_, rfl⟩ | ⟨hnot, rfl⟩⟩ := hr'
    · exact fun hpending => by cases hpending
    · intro hpending
      obtain ⟨b, hb, haboutb⟩ := habout
      refine hnot (List.any_eq_true.mpr ⟨b, hb, ?_⟩)
      simp [pendingAbout, haboutb, hpending]

theorem mem_update_of_not {ρ κ : Type} [Keyed ρ κ] {t : Table ρ} {p : ρ → Bool}
    {f : Table.Assignment ρ} {r : ρ} (hr : r ∈ t.rows) (h : ¬p r = true) :
    r ∈ (t.update p f).rows :=
  Table.mem_update_iff.mpr ⟨r, hr, .inr ⟨h, rfl⟩⟩

theorem CancelsScope.keepsOthers (h : CancelsScope call ids db db') : KeepsOthers ids db db' where
  bookings r hr hid := by
    rw [h.bookings]
    refine mem_update_of_not hr fun hany => ?_
    obtain ⟨b, hb, heq⟩ := List.any_eq_true.mp hany
    rw [beq_iff_eq.mp heq] at hid
    exact hid hb
  slots s hs hid := by
    rw [h.slots]
    refine mem_update_of_not hs fun hany => ?_
    obtain ⟨b, hb, hopen⟩ := List.any_eq_true.mp hany
    simp only [openSlot, Bool.and_eq_true, beq_iff_eq] at hopen
    rw [hopen.1] at hid
    exact hid hb
  approvals r hr habout := by
    rw [h.approvals]
    refine mem_update_of_not hr fun hany => ?_
    obtain ⟨b, hb, hpending⟩ := List.any_eq_true.mp hany
    exact habout ⟨b, hb, (Bool.and_eq_true_iff.mp hpending).1⟩
  orders o ho hof := by
    rw [h.orders]
    refine mem_update_of_not ho fun hany => ?_
    obtain ⟨b, hb, hfully⟩ := List.any_eq_true.mp hany
    exact hof ⟨b, hb, ((fullyCancelledOrder_iff ho).mp hfully).1⟩
  lines l hl hof := by
    rw [h.orderLineItems]
    refine mem_update_of_not hl fun hany => ?_
    exact hof (any_cancellableLine.mp hany).1
  workOrders w hw hof := by
    rw [h.workOrders]
    refine mem_update_of_not hw fun hany => ?_
    obtain ⟨b, hb, hclosable⟩ := List.any_eq_true.mp hany
    simp only [closableWorkOrder, Bool.and_eq_true, List.any_eq_true, beq_iff_eq,
      cancellableLine_eq] at hclosable
    obtain ⟨⟨l, hl, hlinked, horder, _⟩, _⟩ := hclosable
    exact hof ⟨l, hl, hlinked, b, hb, horder⟩
  assetReservations r hr hof := by
    rw [h.assetReservations]
    refine mem_update_of_not hr fun hany => ?_
    obtain ⟨b, hb, hheld⟩ := List.any_eq_true.mp hany
    simp only [heldAsset, Bool.and_eq_true, beq_iff_eq] at hheld
    exact hof ⟨b, hb, hheld.1⟩

theorem CancelsScope.cancelsTouchedOrders_iff (h : CancelsScope call ids db db') :
    CancelsTouchedOrders db db' ↔ NoSpentOrder ids db := by
  constructor
  · intro hlaw o ho hof hopen hunfulfilled hsome
    by_cases hall : ∀ l ∈ db.orderLineItems.rows, l.orderId = o.id → l.isFree = true
    · obtain ⟨b, hb, hbooking⟩ := hof
      have hfully : (ids.any fun b => fullyCancelledOrder db b o) = true :=
        List.any_eq_true.mpr ⟨b, hb,
          (fullyCancelledOrder_iff ho).mpr ⟨hbooking, hopen, hunfulfilled, hsome, hall⟩⟩
      have hmem : { o with status := .cancelled } ∈ db'.orders.rows := by
        rw [h.orders]
        exact Table.mem_update.mpr ⟨o, ho, Table.updated_of_true hfully⟩
      obtain ⟨⟨l, hl, horder, hlive, _⟩, _⟩ := hlaw o ho _ hmem rfl rfl hopen
      exact ⟨l, hl, horder, hlive⟩
    · push Not at hall
      obtain ⟨l, hl, horder, htaken⟩ := hall
      exact ⟨l, hl, horder, fun hcancelled => htaken (isFree_of_cancelled hcancelled)⟩
  · intro hspent o ho o' ho' hid hcancelled hopen
    rw [h.orders, Table.mem_update_iff] at ho'
    obtain ⟨o₁, ho₁, ⟨hfully, rfl⟩ | ⟨_, rfl⟩⟩ := ho'
    swap
    · obtain rfl := db.orders.eq_of_key_eq ho₁ ho hid
      exact absurd hcancelled hopen
    obtain rfl := db.orders.eq_of_key_eq ho₁ ho hid
    obtain ⟨b, hb, hb'⟩ := List.any_eq_true.mp hfully
    obtain ⟨hbooking, _, hunfulfilled, hsome, hall⟩ := (fullyCancelledOrder_iff ho).mp hb'
    have hof : ∀ l : OrderLineItem, l.orderId = o₁.id → l.IsOf db ids := by
      intro l horder
      refine ⟨b, hb, ?_⟩
      rw [horder]
      exact hasOrder_of_mem ho hbooking
    refine ⟨?_, ?_⟩
    · obtain ⟨l, hl, horder, hlive⟩ := hspent o₁ ho ⟨b, hb, hbooking⟩ hopen hunfulfilled hsome
      refine ⟨l, hl, horder, hlive, cancelLine.apply l, ?_, rfl, rfl⟩
      exact h.mem_lines.mpr ⟨l, hl, .inl ⟨hof l horder, hall l hl horder, rfl⟩⟩
    · intro l' hl' horder
      obtain ⟨l, hl, hcase⟩ := h.mem_lines.mp hl'
      rcases hcase with ⟨_, _, rfl⟩ | ⟨hnot, rfl⟩
      · rfl
      · exact absurd ⟨hof l' horder, hall l' hl horder⟩ hnot

theorem CancelsScope.keepsFulfilled_iff (h : CancelsScope call ids db db') :
    KeepsFulfilled db db' ↔ NoFulfilledAsset ids db := by
  constructor
  · intro hlaw r hr hof hconfirmed l hl htaken hlinked
    have hkept := (hlaw l hl htaken).2.2 r hr hlinked
    obtain ⟨b, hb, hbooking⟩ := hof
    rw [h.assetReservations, Table.mem_update_iff] at hkept
    obtain ⟨r₁, hr₁, ⟨_, heq⟩ | ⟨hnot, rfl⟩⟩ := hkept
    · rw [heq] at hconfirmed
      cases hconfirmed
    · exact hnot (List.any_eq_true.mpr ⟨b, hb, by simp [heldAsset, hbooking, hconfirmed]⟩)
  · intro hassets l hl htaken
    refine ⟨?_, ?_, ?_⟩
    · refine h.mem_lines.mpr ⟨l, hl, .inr ⟨?_, rfl⟩⟩
      rintro ⟨_, hfree⟩
      rw [htaken] at hfree
      cases hfree
    · intro w hw hlinked
      rw [h.workOrders]
      refine mem_update_of_not hw fun hany => ?_
      obtain ⟨b, _, hclosable⟩ := List.any_eq_true.mp hany
      simp only [closableWorkOrder, Bool.and_eq_true, List.any_eq_true, beq_iff_eq,
        cancellableLine_eq] at hclosable
      obtain ⟨⟨l₁, hl₁, hlinked₁, _, hfree⟩, _⟩ := hclosable
      rw [hlinked] at hlinked₁
      have hsame : l = l₁ := db.orderLineItems.eq_of_key_eq hl hl₁ (Option.some.inj hlinked₁)
      rw [hsame, hfree] at htaken
      cases htaken
    · intro r hr hlinked
      rw [h.assetReservations]
      refine mem_update_of_not hr fun hany => ?_
      obtain ⟨b, hb, hheld⟩ := List.any_eq_true.mp hany
      simp only [heldAsset, Bool.and_eq_true, beq_iff_eq] at hheld
      exact hassets r hr ⟨b, hb, hheld.1⟩ hheld.2 l hl htaken hlinked

end

/-! ## A call -/

section

variable {call : CancelCall} {store store' : BookingStore} {result : BookingResult}

theorem cancelFresh_scope {scope : CancelScope} (hscope : parseScope call.scope = some scope)
    (hgate : gate store.operations call.idempotencyKey (cancelPayload call scope) = .ok .proceed)
    (h : cancelFresh call scope store = .ok (store', result)) :
    (RunsCascade store call ∧ CancelsScope call (scopeIds store.db call) store.db store'.db) ∨
      (¬RunsCascade store call ∧ store'.db = store.db) := by
  unfold cancelFresh at h
  split at h
  · cases h
  rename_i pivot hpivot
  split at h
  · rename_i hcancelled
    cases h
    refine .inr ⟨?_, rfl⟩
    rintro ⟨_, pivot', _, _, hpivot', hlive⟩
    rw [hpivot] at hpivot'
    cases hpivot'
    exact hlive hcancelled
  · rename_i hlive
    split at h
    · cases h
    · rename_i bookingIds hset
      split at h
      · cases h
      · rename_i hfold
        cases h
        have hids : scopeIds store.db call = bookingIds := by
          unfold scopeIds
          rw [hpivot, hscope]
          simp only [hset]
        rw [hids]
        exact .inl ⟨⟨scope, pivot, hscope, hgate, hpivot, hlive⟩, foldlM_cancelOne_scope hfold⟩

theorem cancelGated_scope {scope : CancelScope} (hscope : parseScope call.scope = some scope)
    (h : cancelBookingWithCascade.gated store call scope = .ok (store', result)) :
    (RunsCascade store call ∧ CancelsScope call (scopeIds store.db call) store.db store'.db) ∨
      (¬RunsCascade store call ∧ store'.db = store.db) := by
  simp only [cancelBookingWithCascade.gated] at h
  split at h
  · cases h
  · rename_i hgate
    cases h
    refine .inr ⟨?_, rfl⟩
    rintro ⟨scope', _, hscope', hproceed, _⟩
    rw [hscope] at hscope'
    cases hscope'
    rw [hgate] at hproceed
    cases hproceed
  · rename_i hgate
    split at h
    · cases h
    · rename_i hfresh
      cases h
      have hscoped := cancelFresh_scope hscope hgate hfresh
      exact hscoped

theorem cancelBooking_scope (h : cancelBookingWithCascade store call = .ok (store', result)) :
    (RunsCascade store call ∧ CancelsScope call (scopeIds store.db call) store.db store'.db) ∨
      (¬RunsCascade store call ∧ store'.db = store.db) := by
  simp only [cancelBookingWithCascade] at h
  split at h
  · cases h
  · split at h
    · cases h
    · rename_i scope hscope
      split at h
      · split at h
        · cases h
        · exact cancelGated_scope hscope h
      · exact cancelGated_scope hscope h

theorem changesScopeOnly_self {db : BookingDb} :
    ChangesScopeOnly ids db db ↔ NothingLive ids db := by
  refine ⟨ChangesScopeOnly.nothingLive, fun h => ⟨h, ?_, ?_, ?_⟩⟩
  · intro o ho o' ho' hid hcancelled hopen
    obtain rfl := db.orders.eq_of_key_eq ho' ho hid
    exact absurd hcancelled hopen
  · exact fun l hl _ => ⟨hl, fun w hw _ => hw, fun r hr _ => hr⟩
  · constructor <;> exact fun _ hr _ => hr

/-- The law of a successful call. -/
theorem changesScopeOnly_iff
    (h : cancelBookingWithCascade store call = .ok (store', result)) :
    ChangesScopeOnly (scopeIds store.db call) store.db store'.db ↔
      (RunsCascade store call → NoSpentOrder (scopeIds store.db call) store.db ∧
        NoFulfilledAsset (scopeIds store.db call) store.db) ∧
      (¬RunsCascade store call → NothingLive (scopeIds store.db call) store.db) := by
  rcases cancelBooking_scope h with ⟨hruns, hscope⟩ | ⟨hnot, hdb⟩
  · constructor
    · intro hlaw
      refine ⟨fun _ => ?_, fun hnot => absurd hruns hnot⟩
      exact ⟨hscope.cancelsTouchedOrders_iff.mp hlaw.orders,
        hscope.keepsFulfilled_iff.mp hlaw.fulfilled⟩
    · rintro ⟨hcond, _⟩
      obtain ⟨hspent, hassets⟩ := hcond hruns
      exact ⟨hscope.nothingLive, hscope.cancelsTouchedOrders_iff.mpr hspent,
        hscope.keepsFulfilled_iff.mpr hassets, hscope.keepsOthers⟩
  · rw [hdb, changesScopeOnly_self]
    exact ⟨fun hnothing => ⟨fun hruns => absurd hruns hnot, fun _ => hnothing⟩,
      fun hcond => hcond.2 hnot⟩

end

/-! ## An order that was cancelled line by line -/

def oneLineStore (status : FulfillmentStatus) : BookingStore where
  db :=
    { bookings := Table.empty.put
        { id := 1, status := .confirmed, locationId := 1, startAt := 0, endAt := 60 }
      slots := Table.empty.put
        { id := 1, bookingId := 1, spaceId := 1, startAt := 0, endAt := 60, status := .confirmed }
      approvals := Table.empty
      orders := Table.empty.put { id := 5, bookingId := some 1, status := .submitted }
      orderLineItems := Table.empty.put { id := 7, orderId := 5, fulfillmentStatus := status } }

def cancelOneLine : CancelCall where
  bookingId := 1
  idempotencyKey := "k"
  now := 10
  env := { userOf := fun _ => none, entityInTenant := fun _ _ => true, rules := [] }

/-- With a line that is still ordered, the order goes with it. -/
theorem changesScopeOnly_orderedLine :
    ∃ store' result, cancelBookingWithCascade (oneLineStore .ordered) cancelOneLine
        = .ok (store', result) ∧
      ChangesScopeOnly (scopeIds (oneLineStore .ordered).db cancelOneLine)
        (oneLineStore .ordered).db store'.db := by
  refine ⟨_, _, rfl, (changesScopeOnly_iff rfl).mpr ⟨fun _ => ⟨?_, ?_⟩, fun hnot => ?_⟩⟩
  · intro o ho _ _ _ _
    refine ⟨{ id := 7, orderId := 5, fulfillmentStatus := .ordered }, by decide, ?_, by decide⟩
    obtain rfl := List.mem_singleton.mp (show o ∈ [_] from ho)
    rfl
  · intro r hr
    exact absurd hr List.not_mem_nil
  · refine absurd ?_ hnot
    exact ⟨.this, { id := 1, status := .confirmed, locationId := 1, startAt := 0, endAt := 60 }, by decide,
      by decide, by decide, by decide⟩

/-- A line that was cancelled before takes its order with it all the same. -/
theorem spentOrder_cancelled :
    ¬ ∀ (store : BookingStore) (call : CancelCall) (store' : BookingStore) (result : BookingResult),
      cancelBookingWithCascade store call = .ok (store', result) →
        ChangesScopeOnly (scopeIds store.db call) store.db store'.db := by
  intro hlaw
  have horders := (hlaw (oneLineStore .cancelled) cancelOneLine _ _ rfl).orders
  obtain ⟨⟨l, hl, _, hlive, _⟩, _⟩ := horders
    { id := 5, bookingId := some 1, status := .submitted } (by decide)
    { id := 5, bookingId := some 1, status := .cancelled } (by decide) rfl rfl (by decide)
  obtain rfl := List.mem_singleton.mp (show l ∈ [_] from hl)
  exact hlive rfl

end Prequest.Booking
