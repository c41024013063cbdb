import Prequest.Booking.LinkedRows
import Prequest.Lib.Patches

/-!
# The plan of an edit that was made

A request that is sent again is planned again, from tables that have its first
edit. The database compares the two plans and takes the second for the first when
they are the same, but for what is read of the approvals.
-/

namespace Prequest.Booking

open Prequest.Lib Prequest.Approval

/-! ## Rows that moved along -/

def SlotMove.settled (m : SlotMove) : SlotMove where
  oldSpaceId := m.newSpaceId
  oldStartAt := m.newStartAt
  oldEndAt := m.newEndAt
  newSpaceId := m.newSpaceId
  newStartAt := m.newStartAt
  newEndAt := m.newEndAt

section

variable (m : SlotMove) (bookingId : Nat)

theorem key_movedAsset (patch : EditPlanAssetReservationPatch) (r : AssetReservationRow) :
    Keyed.key { r with startAt := patch.startAt, endAt := patch.endAt } = Keyed.key r := rfl

def assetMoves : Patches AssetReservationRow EditPlanAssetReservationPatch where
  owned := fun r => r.bookingId == some bookingId
  live := liveAsset bookingId
  make := fun r => some (m.assetPatch r)
  patchKey := EditPlanAssetReservationPatch.id
  assign := fun patch =>
    ⟨fun r => { r with startAt := patch.startAt, endAt := patch.endAt }, key_movedAsset patch⟩
  owned_of_live := fun r h => by
    rw [liveAsset, Bool.and_eq_true] at h
    exact h.1
  owned_assign := fun _ _ => rfl
  live_assign := fun _ _ => rfl
  patchKey_make := fun r p h => by
    cases h
    rfl

theorem key_movedOrder (patch : EditPlanOrderPatch) (o : OrderRow) :
    Keyed.key { o with
      deliveryLocationId := patch.deliveryLocationId.getD o.deliveryLocationId
      requestedForStartAt := patch.requestedForStartAt.getD o.requestedForStartAt
      requestedForEndAt := patch.requestedForEndAt.getD o.requestedForEndAt } = Keyed.key o := rfl

def orderMoves : Patches OrderRow EditPlanOrderPatch where
  owned := fun o => o.bookingId == some bookingId
  live := liveOrder bookingId
  make := fun o => some (m.orderPatch o)
  patchKey := EditPlanOrderPatch.id
  assign := fun patch =>
    ⟨fun o => { o with
      deliveryLocationId := patch.deliveryLocationId.getD o.deliveryLocationId
      requestedForStartAt := patch.requestedForStartAt.getD o.requestedForStartAt
      requestedForEndAt := patch.requestedForEndAt.getD o.requestedForEndAt }, key_movedOrder patch⟩
  owned_of_live := fun o h => by
    rw [liveOrder, Bool.and_eq_true] at h
    exact h.1
  owned_assign := fun _ _ => rfl
  live_assign := fun _ _ => rfl
  patchKey_make := fun o p h => by
    cases h
    rfl

theorem key_movedWorkOrder (patch : EditPlanWorkOrderSlaPatch) (w : WorkOrderRow) :
    Keyed.key { w with
      plannedStartAt := some patch.plannedStartAt
      slaResolutionDueAt := patch.slaDueAt.getD w.slaResolutionDueAt } = Keyed.key w := rfl

def workOrderMoves : Patches WorkOrderRow EditPlanWorkOrderSlaPatch where
  owned := fun w => w.bookingId == some bookingId
  live := liveWorkOrder bookingId
  make := m.workOrderPatch
  patchKey := EditPlanWorkOrderSlaPatch.id
  assign := fun patch =>
    ⟨fun w => { w with
      plannedStartAt := some patch.plannedStartAt
      slaResolutionDueAt := patch.slaDueAt.getD w.slaResolutionDueAt }, key_movedWorkOrder patch⟩
  owned_of_live := fun w h => by
    rw [liveWorkOrder, Bool.and_eq_true] at h
    exact h.1
  owned_assign := fun _ _ => rfl
  live_assign := fun _ _ => rfl
  patchKey_make := fun w p h => by
    obtain ⟨_, _, rfl⟩ := Option.map_eq_some_iff.mp h
    rfl

end

structure CarriesRows (db db' : BookingDb) (bookingId : Nat) (m : SlotMove) : Prop where
  assets : db'.assetReservations.rows.filter (liveAsset bookingId) =
    (db.assetReservations.rows.filter (liveAsset bookingId)).map (assetMoves m bookingId).moved
  orders : db'.orders.rows.filter (liveOrder bookingId) =
    (db.orders.rows.filter (liveOrder bookingId)).map (orderMoves m bookingId).moved
  workOrders : db'.workOrders.rows.filter (liveWorkOrder bookingId) =
    (db.workOrders.rows.filter (liveWorkOrder bookingId)).map (workOrderMoves m bookingId).moved

section

variable {m : SlotMove} {bookingId : Nat}

@[simp] theorem startDelta_settled : m.settled.startDelta = 0 := Int.sub_self _

theorem shiftWindow_settled (startAt endAt : Int) :
    m.settled.shiftWindow (m.shiftWindow startAt endAt).1 (m.shiftWindow startAt endAt).2 =
      m.shiftWindow startAt endAt := by
  generalize m.shiftWindow startAt endAt = window
  obtain ⟨windowStart, windowEnd⟩ := window
  unfold SlotMove.shiftWindow
  split
  · rename_i h
    exact Prod.ext h.1.symm h.2.symm
  · rw [startDelta_settled, Int.add_zero, Int.add_zero]

theorem assetPatch_settled {r : AssetReservationRow} (hlive : liveAsset bookingId r = true) :
    m.settled.assetPatch ((assetMoves m bookingId).moved r) = m.assetPatch r := by
  have hmoved : (assetMoves m bookingId).moved r =
      { r with
        startAt := (m.shiftWindow r.startAt r.endAt).1
        endAt := (m.shiftWindow r.startAt r.endAt).2 } := if_pos hlive
  rw [hmoved]
  unfold SlotMove.assetPatch
  rw [shiftWindow_settled]

variable {o : OrderRow}

theorem requested_moved (hlive : liveOrder bookingId o = true) :
    ((orderMoves m bookingId).moved o).requestedForStartAt = (m.orderTimes o).1 ∧
      ((orderMoves m bookingId).moved o).requestedForEndAt = (m.orderTimes o).2 := by
  have hmoved : (orderMoves m bookingId).moved o =
      { o with
        deliveryLocationId := (m.orderPatch o).deliveryLocationId.getD o.deliveryLocationId
        requestedForStartAt := (m.orderPatch o).requestedForStartAt.getD o.requestedForStartAt
        requestedForEndAt := (m.orderPatch o).requestedForEndAt.getD o.requestedForEndAt } :=
    if_pos hlive
  rw [hmoved]
  unfold SlotMove.orderPatch SlotMove.orderTimes
  cases o.requestedForStartAt <;> cases o.requestedForEndAt <;> exact ⟨rfl, rfl⟩

theorem orderTimes_settled (hlive : liveOrder bookingId o = true) :
    m.settled.orderTimes ((orderMoves m bookingId).moved o) = m.orderTimes o := by
  obtain ⟨hstart, hend⟩ := requested_moved (m := m) hlive
  have htimes : ∀ o' : OrderRow, o'.requestedForStartAt = (m.orderTimes o).1 →
      o'.requestedForEndAt = (m.orderTimes o).2 → m.settled.orderTimes o' = m.orderTimes o := by
    intro o' hstart hend
    unfold SlotMove.orderTimes at hstart hend ⊢
    rw [hstart, hend]
    cases o.requestedForStartAt <;> cases o.requestedForEndAt <;>
      simp [shiftWindow_settled]
  exact htimes _ hstart hend

theorem orderPatch_settled (hlive : liveOrder bookingId o = true) :
    m.settled.orderPatch ((orderMoves m bookingId).moved o) =
      { m.orderPatch o with deliveryLocationId := none } := by
  have hstays : m.settled.repoints ((orderMoves m bookingId).moved o) = false := by
    simp [SlotMove.repoints, SlotMove.settled]
  have hid : ((orderMoves m bookingId).moved o).id = o.id := by
    rw [show (orderMoves m bookingId).moved o = _ from if_pos hlive]
    rfl
  unfold SlotMove.orderPatch
  rw [hstays, hid, orderTimes_settled hlive]
  rfl

theorem workOrderPatch_settled {w : WorkOrderRow} (hlive : liveWorkOrder bookingId w = true) :
    m.settled.workOrderPatch ((workOrderMoves m bookingId).moved w) = m.workOrderPatch w := by
  have hmoved : (workOrderMoves m bookingId).moved w =
      ((m.workOrderPatch w).map fun p => ((workOrderMoves m bookingId).assign p).apply w).getD w :=
    if_pos hlive
  rw [hmoved]
  cases hplanned : w.plannedStartAt with
  | none => simp [SlotMove.workOrderPatch, hplanned]
  | some plannedStartAt => simp [SlotMove.workOrderPatch, hplanned, workOrderMoves]

def KeepsDelivery (db : BookingDb) (bookingId : Nat) (m : SlotMove) : Prop :=
  ∀ o ∈ db.orders.rows, liveOrder bookingId o = true → m.repoints o = false

theorem linkedRows_settled_iff {db db' : BookingDb} (h : CarriesRows db db' bookingId m) :
    buildLinkedRowPatches db' bookingId m.settled = buildLinkedRowPatches db bookingId m ↔
      KeepsDelivery db bookingId m := by
  have hassets : (db'.assetReservations.rows.filter (liveAsset bookingId)).map m.settled.assetPatch =
      (db.assetReservations.rows.filter (liveAsset bookingId)).map m.assetPatch := by
    rw [h.assets, List.map_map]
    exact List.map_congr_left fun r hr => assetPatch_settled (List.mem_filter.mp hr).2
  have horders : (db'.orders.rows.filter (liveOrder bookingId)).map m.settled.orderPatch =
      (db.orders.rows.filter (liveOrder bookingId)).map fun o =>
        { m.orderPatch o with deliveryLocationId := none } := by
    rw [h.orders, List.map_map]
    exact List.map_congr_left fun o ho => orderPatch_settled (List.mem_filter.mp ho).2
  have hworkOrders : (db'.workOrders.rows.filter (liveWorkOrder bookingId)).filterMap
        m.settled.workOrderPatch =
      (db.workOrders.rows.filter (liveWorkOrder bookingId)).filterMap m.workOrderPatch := by
    rw [h.workOrders, List.filterMap_map]
    exact List.filterMap_congr fun w hw => workOrderPatch_settled (List.mem_filter.mp hw).2
  unfold buildLinkedRowPatches
  rw [hassets, horders, hworkOrders, LinkedRowPatches.mk.injEq]
  constructor
  · rintro ⟨_, hsame, _⟩ o ho hlive
    have hmem : m.orderPatch o ∈ ((db.orders.rows.filter (liveOrder bookingId)).map fun o =>
        ({ m.orderPatch o with deliveryLocationId := none } : EditPlanOrderPatch)).insertionSort
          (·.id ≤ ·.id) := by
      rw [hsame, List.mem_insertionSort]
      exact List.mem_map.mpr ⟨o, List.mem_filter.mpr ⟨ho, hlive⟩, rfl⟩
    rw [List.mem_insertionSort] at hmem
    obtain ⟨_, _, heq⟩ := List.mem_map.mp hmem
    have hnone : (m.orderPatch o).deliveryLocationId = none := by rw [← heq]
    cases hrepoints : m.repoints o with
    | false => rfl
    | true => simp [SlotMove.orderPatch, hrepoints] at hnone
  · intro hstays
    refine ⟨rfl, ?_, rfl⟩
    congr 1
    refine List.map_congr_left fun o ho => ?_
    obtain ⟨ho, hlive⟩ := List.mem_filter.mp ho
    simp [SlotMove.orderPatch, hstays o ho hlive]

theorem CarriesRows.needsBookingScope_eq {db db' : BookingDb} (h : CarriesRows db db' bookingId m)
    (hslots : (db'.slots.rows.countP fun s => s.bookingId == bookingId) =
      db.slots.rows.countP fun s => s.bookingId == bookingId) :
    needsBookingScope db' bookingId = needsBookingScope db bookingId := by
  have hany : ∀ {ρ : Type} {rows rows' : List ρ} {live : ρ → Bool} {f : ρ → ρ},
      rows'.filter live = (rows.filter live).map f → rows'.any live = rows.any live := by
    intro ρ rows rows' live f heq
    rw [Bool.eq_iff_iff, ← Bool.not_eq_false, ← Bool.not_eq_false, not_iff_not,
      List.any_eq_false, List.any_eq_false, ← List.filter_eq_nil_iff, ← List.filter_eq_nil_iff, heq,
      List.map_eq_nil_iff]
  unfold needsBookingScope
  rw [hslots, hany h.assets, hany h.orders, hany h.workOrders]

end

/-! ## The plan -/

def slotPlan (reads : EditPlanReads) (chain : Option ApprovalConfig) (booking : BookingRow)
    (slot : SlotRow) (patch : EditPatch) (resolutionAt : Int) : EditPlan :=
  let spaceId := patch.spaceId.getD slot.spaceId
  let startAt := patch.startAt.getD slot.startAt
  let endAt := patch.endAt.getD slot.endAt
  let attendeeCount := patch.attendeeCount.getD slot.attendeeCount
  let newOutcome := reads.resolve spaceId startAt endAt attendeeCount
  { booking :=
      { locationId := spaceId
        startAt := startAt
        endAt := endAt
        costAmountSnapshot := reads.computeCost spaceId startAt endAt
        policySnapshot := some (reads.policySnapshot newOutcome)
        appliedRuleIds := some (newOutcome.matchedRuleIds.insertionSort (· ≤ ·))
        hostPersonId := patch.hostPersonId
        recurrenceOverridden := if patch.overridesSeries booking slot then some true else none }
    slotPatches :=
      [{ slotId := slot.id
         spaceId := spaceId
         startAt := startAt
         endAt := endAt
         setupBufferMinutes := some (reads.snapshotBuffers spaceId startAt endAt).1
         teardownBufferMinutes := some (reads.snapshotBuffers spaceId startAt endAt).2
         attendeeCount := some attendeeCount
         attendeePersonIds := some (patch.attendeePersonIds.getD slot.attendeePersonIds) }]
    assetReservationPatches := (reads.linkedRows patch).assetReservationPatches
    orderPatches := (reads.linkedRows patch).orderPatches
    workOrderSlaPatches := (reads.linkedRows patch).workOrderSlaPatches
    resolutionAt := resolutionAt
    approval := approvalBlock chain newOutcome }

/-- The room can be booked, and a rule that asks for an approval says whose. -/
structure Plannable (reads : EditPlanReads) (slot : SlotRow) (patch : EditPatch) : Prop where
  room : (reads.loadSpace (patch.spaceId.getD slot.spaceId)).isSome = true
  approvers : (reads.resolve (patch.spaceId.getD slot.spaceId) (patch.startAt.getD slot.startAt)
    (patch.endAt.getD slot.endAt) (patch.attendeeCount.getD slot.attendeeCount)).missingApprovers =
      false

variable {plan : EditPlan}

theorem assembleEditPlan_iff {reads : EditPlanReads} {db : BookingDb} {booking : BookingRow}
    {slot : SlotRow} {patch : EditPatch} {resolutionAt : Int}
    (hbooking : db.bookings.get? booking.id = some booking)
    (hslot : db.slots.get? slot.id = some slot) (hof : slot.bookingId = booking.id) :
    assembleEditPlan reads db booking.id slot.id patch resolutionAt = .ok plan ↔
      Plannable reads slot patch ∧ plan = slotPlan reads
        (loadCurrentApprovalChain db.approvals booking.id) booking slot patch resolutionAt := by
  cases hroom : reads.loadSpace (patch.spaceId.getD slot.spaceId) with
  | none =>
    have herror : assembleEditPlan reads db booking.id slot.id patch resolutionAt =
        .error .spaceNotFound := by
      simp only [assembleEditPlan, hbooking, hslot, hof, ne_eq, not_true_eq_false, if_false, hroom]
    rw [herror]
    constructor
    · intro h
      cases h
    · intro h
      have hsome := h.1.room
      rw [hroom] at hsome
      cases hsome
  | some space =>
    have hfound : assembleEditPlan reads db booking.id slot.id patch resolutionAt =
        if (reads.resolve (patch.spaceId.getD slot.spaceId) (patch.startAt.getD slot.startAt)
            (patch.endAt.getD slot.endAt)
            (patch.attendeeCount.getD slot.attendeeCount)).missingApprovers then
          .error .ruleMissingApprovers
        else .ok (slotPlan reads (loadCurrentApprovalChain db.approvals booking.id) booking slot
          patch resolutionAt) := by
      simp only [assembleEditPlan, hbooking, hslot, hof, ne_eq, not_true_eq_false, if_false, hroom]
      rfl
    rw [hfound]
    constructor
    · intro h
      split at h
      · cases h
      rename_i happrovers
      cases h
      exact ⟨⟨by rw [hroom]; rfl, Bool.eq_false_iff.mpr happrovers⟩, rfl⟩
    · rintro ⟨hplannable, rfl⟩
      simp only [hplannable.approvers, Bool.false_eq_true, if_false]

/-- The second plan takes the series away exactly when the first does: it never does, or does so for
a key of the patch and not for a value. -/
def EditPatch.KeepsOverride (patch : EditPatch) : Prop :=
  patch.autoSetRecurrenceOverridden = false ∨ patch.restated = true ∨
    patch.attendeeCount.isSome = true ∨ patch.attendeePersonIds.isSome = true ∨
      patch.hostPersonId.isSome = true

theorem EditPatch.KeepsOverride.overridesSeries_eq {patch : EditPatch} (h : patch.KeepsOverride)
    {booking booking' : BookingRow} (slot slot' : SlotRow)
    (hseries : booking'.recurrenceSeriesId = booking.recurrenceSeriesId) :
    patch.overridesSeries booking' slot' = patch.overridesSeries booking slot := by
  unfold EditPatch.overridesSeries
  rw [hseries]
  rcases h with h | h | h | h | h <;> simp [h]

/-- The tables after an edit of the slot, as the planner reads them. -/
structure Retried (db db' : BookingDb) (booking : BookingRow) (slot : SlotRow) (patch : EditPatch)
    (booking' : BookingRow) (slot' : SlotRow) : Prop where
  hasBooking : db'.bookings.get? booking.id = some booking'
  requester : booking'.requesterPersonId = booking.requesterPersonId
  series : booking'.recurrenceSeriesId = booking.recurrenceSeriesId
  hasSlot : db'.slots.get? slot.id = some slot'
  ofBooking : slot'.bookingId = slot.bookingId
  spaceId : slot'.spaceId = patch.spaceId.getD slot.spaceId
  startAt : slot'.startAt = patch.startAt.getD slot.startAt
  endAt : slot'.endAt = patch.endAt.getD slot.endAt
  attendeeCount : slot'.attendeeCount = patch.attendeeCount.getD slot.attendeeCount
  attendeePersonIds : slot'.attendeePersonIds = patch.attendeePersonIds.getD slot.attendeePersonIds
  slotCount : (db'.slots.rows.countP fun s => s.bookingId == booking.id) =
    db.slots.rows.countP fun s => s.bookingId == booking.id
  carries : CarriesRows db db' booking.id (patch.move slot)

/-- The buffers that are planned for the slot, at one state of the tables. -/
def EditPlanEnv.buffersAt (env : EditPlanEnv) (db : BookingDb) (booking : BookingRow) (slot : SlotRow)
    (patch : EditPatch) : Nat × Nat :=
  env.snapshotBuffers db booking.requesterPersonId slot.id (patch.spaceId.getD slot.spaceId)
    (patch.startAt.getD slot.startAt) (patch.endAt.getD slot.endAt)

section

variable {env : EditPlanEnv} {db db' : BookingDb} {booking booking' : BookingRow} {slot slot' : SlotRow}
  {patch : EditPatch} {resolutionAt : Int} {mode : LinkedRowMode}

theorem Retried.move (h : Retried db db' booking slot patch booking' slot') :
    patch.move slot' = (patch.move slot).settled := by
  unfold EditPatch.move SlotMove.settled
  rw [h.spaceId, h.startAt, h.endAt]
  cases patch.spaceId <;> cases patch.startAt <;> cases patch.endAt <;> rfl

theorem Retried.target (h : Retried db db' booking slot patch booking' slot') :
    patch.spaceId.getD slot'.spaceId = patch.spaceId.getD slot.spaceId ∧
      patch.startAt.getD slot'.startAt = patch.startAt.getD slot.startAt ∧
        patch.endAt.getD slot'.endAt = patch.endAt.getD slot.endAt ∧
          patch.attendeeCount.getD slot'.attendeeCount = patch.attendeeCount.getD slot.attendeeCount ∧
            patch.attendeePersonIds.getD slot'.attendeePersonIds =
              patch.attendeePersonIds.getD slot.attendeePersonIds := by
  rw [h.spaceId, h.startAt, h.endAt, h.attendeeCount, h.attendeePersonIds]
  refine ⟨?_, ?_, ?_, ?_, ?_⟩
  · cases patch.spaceId <;> rfl
  · cases patch.startAt <;> rfl
  · cases patch.endAt <;> rfl
  · cases patch.attendeeCount <;> rfl
  · cases patch.attendeePersonIds <;> rfl

/-- What the hash is taken of, by what the planner reads of other rows. -/
def hashedPlan (env : EditPlanEnv) (requesterPersonId slotId spaceId : Nat) (startAt endAt : Int)
    (attendeeCount : Option Nat) (attendeePersonIds : List Nat) (hostPersonId : Option (Option Nat))
    (overrides : Bool) (resolutionAt : Int) (buffers : Nat × Nat) (linked : LinkedRowPatches) :
    EditPlan :=
  let newOutcome := env.resolve requesterPersonId spaceId startAt endAt attendeeCount resolutionAt
  { booking :=
      { locationId := spaceId
        startAt := startAt
        endAt := endAt
        costAmountSnapshot := env.computeCost spaceId startAt endAt
        policySnapshot := some (env.policySnapshot (env.space spaceId) newOutcome buffers)
        appliedRuleIds := some (newOutcome.matchedRuleIds.insertionSort (· ≤ ·))
        hostPersonId := hostPersonId
        recurrenceOverridden := if overrides then some true else none }
    slotPatches :=
      [{ slotId := slotId
         spaceId := spaceId
         startAt := startAt
         endAt := endAt
         setupBufferMinutes := some buffers.1
         teardownBufferMinutes := some buffers.2
         attendeeCount := some attendeeCount
         attendeePersonIds := some attendeePersonIds }]
    assetReservationPatches := linked.assetReservationPatches
    orderPatches := linked.orderPatches
    workOrderSlaPatches := linked.workOrderSlaPatches
    resolutionAt := 0
    approval :=
      { oldOutcome := .allow
        newOutcome := newOutcome.final
        chainConfigChanged := false
        newChainConfig := shapeChainConfigForPlan newOutcome.approvalConfig } }

theorem slotPlan_hashed (chain : Option ApprovalConfig) :
    (slotPlan (env.reads db booking slot patch resolutionAt) chain booking slot patch
        resolutionAt).hashed =
      hashedPlan env booking.requesterPersonId slot.id (patch.spaceId.getD slot.spaceId)
        (patch.startAt.getD slot.startAt) (patch.endAt.getD slot.endAt)
        (patch.attendeeCount.getD slot.attendeeCount)
        (patch.attendeePersonIds.getD slot.attendeePersonIds) patch.hostPersonId
        (patch.overridesSeries booking slot) resolutionAt (env.buffersAt db booking slot patch)
        (buildLinkedRowPatches db booking.id (patch.move slot)) := rfl

theorem hashedPlan_inj {requesterPersonId slotId spaceId : Nat} {startAt endAt : Int}
    {attendeeCount : Option Nat} {attendeePersonIds : List Nat} {hostPersonId : Option (Option Nat)}
    {overrides : Bool} {buffers buffers' : Nat × Nat} {linked linked' : LinkedRowPatches} :
    hashedPlan env requesterPersonId slotId spaceId startAt endAt attendeeCount attendeePersonIds
        hostPersonId overrides resolutionAt buffers' linked' =
      hashedPlan env requesterPersonId slotId spaceId startAt endAt attendeeCount attendeePersonIds
        hostPersonId overrides resolutionAt buffers linked ↔ buffers' = buffers ∧ linked' = linked := by
  constructor
  · intro h
    simp only [hashedPlan, EditPlan.mk.injEq, List.cons.injEq, EditPlanSlotPatch.mk.injEq,
      Option.some.injEq] at h
    obtain ⟨_, ⟨⟨_, _, _, _, hsetup, hteardown, _⟩, _⟩, hassets, horders, hworkOrders, _⟩ := h
    refine ⟨Prod.ext hsetup hteardown, ?_⟩
    cases linked'
    cases linked
    exact LinkedRowPatches.mk.injEq .. ▸ ⟨hassets, horders, hworkOrders⟩
  · rintro ⟨rfl, rfl⟩
    rfl

/-- The two plans are the same for the database exactly when the buffers are and no order was
re-pointed. -/
theorem slotPlan_hashed_iff (h : Retried db db' booking slot patch booking' slot')
    (hover : patch.KeepsOverride) (chain chain' : Option ApprovalConfig) :
    (slotPlan (env.reads db' booking' slot' patch resolutionAt) chain' booking' slot' patch
        resolutionAt).hashed =
      (slotPlan (env.reads db booking slot patch resolutionAt) chain booking slot patch
        resolutionAt).hashed ↔
      env.buffersAt db' booking slot patch = env.buffersAt db booking slot patch ∧
        KeepsDelivery db booking.id (patch.move slot) := by
  obtain ⟨hspace, hstart, hend, hcount, hpersons⟩ := h.target
  have hslotId : slot'.id = slot.id := (Table.get?_eq_some.mp h.hasSlot).2
  have hbookingId : booking'.id = booking.id := (Table.get?_eq_some.mp h.hasBooking).2
  have hbuffers : env.buffersAt db' booking' slot' patch = env.buffersAt db' booking slot patch := by
    unfold EditPlanEnv.buffersAt
    rw [h.requester, hslotId, hspace, hstart, hend]
  rw [slotPlan_hashed, slotPlan_hashed, hbuffers, h.requester, hslotId, hspace, hstart, hend, hcount,
    hpersons, hover.overridesSeries_eq slot slot' h.series, hbookingId, h.move, hashedPlan_inj,
    linkedRows_settled_iff h.carries]

theorem buildSingleSlotPlan_ok (hbooking : db.bookings.get? booking.id = some booking)
    (hslot : db.slots.get? slot.id = some slot)
    (h : buildSingleSlotPlan env db booking.id slot.id patch resolutionAt mode = .ok plan) :
    slot.bookingId = booking.id ∧
      assembleEditPlan (env.reads db booking slot patch resolutionAt) db booking.id slot.id patch
        resolutionAt = .ok plan ∧
        ¬(mode = .singleSlot ∧ needsBookingScope db booking.id = true) := by
  simp only [buildSingleSlotPlan, hbooking, hslot] at h
  split at h
  · cases h
  rename_i hplan
  split at h
  · cases h
  rename_i hscope
  cases h
  refine ⟨?_, hplan, hscope⟩
  by_contra hof
  simp only [assembleEditPlan, hbooking, hslot] at hplan
  rw [if_pos hof] at hplan
  cases hplan

/-- The request is planned again, and the second plan is the first for the database exactly when the
buffers are the same and no order was re-pointed. -/
theorem retriedPlan_iff (h : Retried db db' booking slot patch booking' slot')
    (hbooking : db.bookings.get? booking.id = some booking)
    (hslot : db.slots.get? slot.id = some slot) (hover : patch.KeepsOverride)
    (hplan : buildSingleSlotPlan env db booking.id slot.id patch resolutionAt mode = .ok plan) :
    ∃ plan', buildSingleSlotPlan env db' booking.id slot.id patch resolutionAt mode = .ok plan' ∧
      (plan'.hashed = plan.hashed ↔
        env.buffersAt db' booking slot patch = env.buffersAt db booking slot patch ∧
          KeepsDelivery db booking.id (patch.move slot)) := by
  obtain ⟨hof, hassembled, hscope⟩ := buildSingleSlotPlan_ok hbooking hslot hplan
  obtain ⟨hplannable, rfl⟩ := (assembleEditPlan_iff hbooking hslot hof).mp hassembled
  have hslotId : slot'.id = slot.id := (Table.get?_eq_some.mp h.hasSlot).2
  have hbookingId : booking'.id = booking.id := (Table.get?_eq_some.mp h.hasBooking).2
  have hplannable' : Plannable (env.reads db' booking' slot' patch resolutionAt) slot' patch := by
    obtain ⟨hspace, hstart, hend, hcount, _⟩ := h.target
    refine ⟨?_, ?_⟩
    · rw [hspace]
      exact hplannable.room
    · rw [hspace, hstart, hend, hcount]
      show (env.resolve booking'.requesterPersonId _ _ _ _ _).missingApprovers = false
      rw [h.requester]
      exact hplannable.approvers
  have hassembled' : assembleEditPlan (env.reads db' booking' slot' patch resolutionAt) db' booking'.id
      slot'.id patch resolutionAt = .ok (slotPlan (env.reads db' booking' slot' patch resolutionAt)
        (loadCurrentApprovalChain db'.approvals booking'.id) booking' slot' patch resolutionAt) :=
    (assembleEditPlan_iff (hbookingId ▸ h.hasBooking) (hslotId ▸ h.hasSlot)
      (by rw [h.ofBooking, hof, hbookingId])).mpr ⟨hplannable', rfl⟩
  refine ⟨_, ?_, slotPlan_hashed_iff h hover _ (loadCurrentApprovalChain db'.approvals booking'.id)⟩
  rw [hbookingId, hslotId] at hassembled'
  unfold buildSingleSlotPlan
  simp only [h.hasBooking, h.hasSlot, hassembled']
  rw [if_neg (by rw [h.carries.needsBookingScope_eq h.slotCount]; exact hscope), hbookingId]

end

end Prequest.Booking
