import Prequest.Booking.EditScope
import Prequest.Booking.PlanRetry

/-!
# What an edit writes

An edit of one booking changes the rows of that booking, and no row of another
one. The rows that move along end up where the plan has them.

* `loop_retried`: the rows of each occurrence after the edit of a series.
-/

namespace Prequest.Booking

open Prequest.Lib Prequest.Outbox Prequest.Approval Prequest.Command

structure SameRowsOf (db db' : BookingDb) (bookingId : Nat) : Prop where
  booking : db'.bookings.get? bookingId = db.bookings.get? bookingId
  slots : (db'.slots.rows.filter fun s => s.bookingId == bookingId) =
    db.slots.rows.filter fun s => s.bookingId == bookingId
  approvals : db'.approvals.rows.filter (aboutBooking bookingId) =
    db.approvals.rows.filter (aboutBooking bookingId)
  assets : (db'.assetReservations.rows.filter fun r => r.bookingId == some bookingId) =
    db.assetReservations.rows.filter fun r => r.bookingId == some bookingId
  orders : (db'.orders.rows.filter fun o => o.bookingId == some bookingId) =
    db.orders.rows.filter fun o => o.bookingId == some bookingId
  workOrders : (db'.workOrders.rows.filter fun w => w.bookingId == some bookingId) =
    db.workOrders.rows.filter fun w => w.bookingId == some bookingId

theorem SameRowsOf.refl (db : BookingDb) (bookingId : Nat) : SameRowsOf db db bookingId :=
  ⟨rfl, rfl, rfl, rfl, rfl, rfl⟩

variable {bookingId : Nat}

theorem SameRowsOf.trans {a b c : BookingDb} (h : SameRowsOf a b bookingId)
    (h' : SameRowsOf b c bookingId) : SameRowsOf a c bookingId :=
  ⟨h'.booking.trans h.booking, h'.slots.trans h.slots, h'.approvals.trans h.approvals,
    h'.assets.trans h.assets, h'.orders.trans h.orders, h'.workOrders.trans h.workOrders⟩

theorem filter_of_filter {ρ : Type} {rows rows' : List ρ} {owned q : ρ → Bool}
    (h : rows'.filter owned = rows.filter owned) (hq : ∀ r, q r = true → owned r = true) :
    rows'.filter q = rows.filter q := by
  have hpart : ∀ rows : List ρ, rows.filter q = (rows.filter owned).filter q := by
    intro rows
    rw [List.filter_filter]
    refine List.filter_congr fun r _ => ?_
    cases hr : q r with
    | false => rfl
    | true => rw [hq r hr, Bool.and_true]
  rw [hpart, h, ← hpart]

/-- What an edit that is written leaves in each table. -/
structure AppliedEdit (call : EditCall) (db : BookingDb) (b : BookingRow) (action : EditAction)
    (db' : BookingDb) : Prop where
  slots : applySlotPatches db.slots b.id call.plan.slotPatches = .ok db'.slots
  approvals : approvalsAfterEdit call db.approvals action = .ok db'.approvals
  bookings : db'.bookings = db.bookings.update (fun r => r.id == b.id)
    ⟨editedBooking call.plan.booking (action.statusTarget.getD b.status) call.now, fun _ => rfl⟩
  assets : db'.assetReservations =
    call.plan.assetReservationPatches.foldl (applyAssetPatch b.id) db.assetReservations
  orders : db'.orders = call.plan.orderPatches.foldl (applyOrderPatch b.id) db.orders
  workOrders : db'.workOrders =
    call.plan.workOrderSlaPatches.foldl (applyWorkOrderPatch b.id) db.workOrders
  outbox : emitAll db.outbox ((editEvents call b action).map Prod.snd) = .ok db'.outbox

section

variable {call : EditCall} {db db' : BookingDb} {b : BookingRow} {action : EditAction}

theorem applied_of_applyEdit {store : BookingStore} {result : BookingResult}
    (h : applyEdit call store b action = .ok (db', result)) :
    AppliedEdit call store.db b action db' := by
  simp only [applyEdit] at h
  split at h
  · cases h
  rename_i slots hslots
  split at h
  · cases h
  rename_i approvals happrovals
  split at h
  · cases h
  rename_i hemitted
  cases h
  exact ⟨hslots, happrovals, rfl, rfl, rfl, rfl, hemitted⟩

/-! ## Other bookings -/

variable {id : Nat}

theorem applySlotPatches_filter_other {patches : List EditPlanSlotPatch}
    {slots slots' : Table SlotRow} (h : applySlotPatches slots bookingId patches = .ok slots')
    (hne : id ≠ bookingId) :
    (slots'.rows.filter fun s => s.bookingId == id) =
      slots.rows.filter fun s => s.bookingId == id := by
  induction patches generalizing slots with
  | nil =>
    cases h
    rfl
  | cons patch patches ih =>
    simp only [applySlotPatches, List.foldlM_cons] at h
    by_cases hoverlap : hasOverlap
        (slots.update (patchesSlot bookingId patch) (applySlotPatch patch)) = true
    · rw [if_pos hoverlap] at h
      cases h
    rw [if_neg hoverlap] at h
    rw [ih h, show (slots.update (patchesSlot bookingId patch) (applySlotPatch patch)).rows =
      slots.rows.map (Table.updated (patchesSlot bookingId patch) (applySlotPatch patch)) from rfl,
      List.filter_map]
    have hof : ∀ s : SlotRow, (Table.updated (patchesSlot bookingId patch)
        (applySlotPatch patch) s).bookingId = s.bookingId := by
      intro s
      unfold Table.updated
      split <;> rfl
    rw [show ((fun s : SlotRow => s.bookingId == id) ∘ Table.updated (patchesSlot bookingId patch)
        (applySlotPatch patch)) = fun s => s.bookingId == id from
      funext fun s => by rw [Function.comp_apply, hof]]
    refine (List.map_congr_left fun s hs => ?_).trans (List.map_id _)
    have hs : s.bookingId = id := by simpa using (List.mem_filter.mp hs).2
    exact Table.updated_of_false (by simp [patchesSlot, hs, hne])

theorem approvalsAfterEdit_filter_other {approvals approvals' : Table ApprovalRow}
    (h : approvalsAfterEdit call approvals action = .ok approvals') (hne : id ≠ call.bookingId) :
    approvals'.rows.filter (aboutBooking id) = approvals.rows.filter (aboutBooking id) := by
  obtain ⟨new, hrows, hnew, _⟩ := approvalsAfterEdit_rows h
  have hother : ∀ r, aboutBooking call.bookingId r = true → aboutBooking id r = false := by
    intro r hr
    simp only [aboutBooking, Bool.and_eq_true, beq_iff_eq] at hr
    simp [aboutBooking, hr.2, Ne.symm hne]
  have hnone : new.filter (aboutBooking id) = [] := List.filter_eq_nil_iff.mpr fun r hr => by
    rw [hother r (hnew r hr).about]
    exact Bool.false_ne_true
  have hkept : ∀ r, aboutBooking id r = true → rowAfterEdit call approvals action r = r := by
    intro r hr
    unfold rowAfterEdit
    split
    · refine Table.updated_of_false ?_
      cases hexpired : expiredByEdit (approvalState approvals call.bookingId) call.bookingId r with
      | false => rfl
      | true =>
        rw [expiredByEdit, Bool.and_eq_true] at hexpired
        rw [hother r hexpired.1] at hr
        cases hr
    · rfl
  have habout : ∀ r, aboutBooking id (rowAfterEdit call approvals action r) = aboutBooking id r := by
    intro r
    unfold rowAfterEdit Table.updated
    split
    · split <;> rfl
    · rfl
  rw [hrows, List.filter_append, hnone, List.append_nil, List.filter_map,
    show (aboutBooking id ∘ rowAfterEdit call approvals action) = aboutBooking id from
      funext fun r => by rw [Function.comp_apply, habout]]
  exact (List.map_congr_left fun r hr => hkept r (List.mem_filter.mp hr).2).trans (List.map_id _)

theorem AppliedEdit.sameRows (h : AppliedEdit call db b action db') (hb : b.id = call.bookingId)
    (hne : id ≠ call.bookingId) : SameRowsOf db db' id := by
  refine ⟨?_, ?_, ?_, ?_, ?_, ?_⟩
  · rw [h.bookings, Table.get?_update]
    cases hget : db.bookings.get? id with
    | none => rfl
    | some other =>
      have hother : other.id = id := (Table.get?_eq_some.mp hget).2
      rw [Option.map_some, Table.updated_of_false (by simp [hother, hb, hne])]
  · exact applySlotPatches_filter_other h.slots (by rw [hb]; exact hne)
  · exact approvalsAfterEdit_filter_other h.approvals hne
  · rw [h.assets]
    refine (assetMoves default b.id).filter_other call.plan.assetReservationPatches ?_ ?_
    · intro r hr
      rw [beq_iff_eq] at hr
      simp [assetMoves, hr, hb, hne]
    · intro p r hr
      simp only [assetMoves, beq_iff_eq] at hr ⊢
      simp [hr, hb, Ne.symm hne]
  · rw [h.orders]
    refine (orderMoves default b.id).filter_other call.plan.orderPatches ?_ ?_
    · intro o ho
      rw [beq_iff_eq] at ho
      simp [orderMoves, ho, hb, hne]
    · intro p o ho
      simp only [orderMoves, beq_iff_eq] at ho ⊢
      simp [ho, hb, Ne.symm hne]
  · rw [h.workOrders]
    refine (workOrderMoves default b.id).filter_other call.plan.workOrderSlaPatches ?_ ?_
    · intro w hw
      rw [beq_iff_eq] at hw
      simp [workOrderMoves, hw, hb, hne]
    · intro p w hw
      simp only [workOrderMoves, beq_iff_eq] at hw ⊢
      simp [hw, hb, Ne.symm hne]

end

/-! ## The booking itself -/

section

variable {call : EditCall} {env : EditPlanEnv} {db₀ db db' : BookingDb} {booking booking' : BookingRow}
  {slot slot' : SlotRow} {patch : EditPatch} {resolutionAt : Int} {action : EditAction}

theorem SameRowsOf.findSlot (h : SameRowsOf db₀ db booking.id)
    (hslot : db₀.slots.get? slot.id = some slot) (hof : slot.bookingId = booking.id) :
    db.slots.get? slot.id = some slot := by
  have hmem : slot ∈ db₀.slots.rows.filter fun s => s.bookingId == booking.id :=
    List.mem_filter.mpr ⟨(Table.get?_eq_some.mp hslot).1, by simp [hof]⟩
  rw [← h.slots] at hmem
  exact Table.get?_of_mem (List.mem_filter.mp hmem).1

variable {chain : Option ApprovalConfig}

theorem slots_of_slotPlan {plan : EditPlan} {slots : Table SlotRow}
    (hplan : plan = slotPlan (env.reads db₀ booking slot patch resolutionAt) chain booking slot patch
      resolutionAt) (h : applySlotPatches slots booking.id plan.slotPatches = .ok db'.slots) :
    ∃ p : EditPlanSlotPatch, p.slotId = slot.id ∧ p.spaceId = patch.spaceId.getD slot.spaceId ∧
      p.startAt = patch.startAt.getD slot.startAt ∧ p.endAt = patch.endAt.getD slot.endAt ∧
        p.attendeeCount = some (patch.attendeeCount.getD slot.attendeeCount) ∧
          p.attendeePersonIds = some (patch.attendeePersonIds.getD slot.attendeePersonIds) ∧
            db'.slots = slots.update (patchesSlot booking.id p) (applySlotPatch p) := by
  subst hplan
  simp only [slotPlan, applySlotPatches, List.foldlM_cons, List.foldlM_nil] at h
  split at h
  · cases h
  · exact ⟨_, rfl, rfl, rfl, rfl, rfl, rfl, (Except.ok.inj h).symm⟩

theorem carriesRows_of_applied {b : BookingRow}
    (h : AppliedEdit call db b action db') (hb : b.id = booking.id)
    (hview : SameRowsOf db₀ db booking.id)
    (hplan : call.plan = slotPlan (env.reads db₀ booking slot patch resolutionAt) chain booking slot
      patch resolutionAt) : CarriesRows db₀ db' booking.id (patch.move slot) := by
  refine ⟨?_, ?_, ?_⟩
  · have hlive : db.assetReservations.rows.filter (liveAsset booking.id) =
        db₀.assetReservations.rows.filter (liveAsset booking.id) :=
      filter_of_filter hview.assets (assetMoves (patch.move slot) booking.id).owned_of_live
    rw [h.assets, hplan, hb, ← hlive]
    refine (assetMoves (patch.move slot) booking.id).filter_live ?_
    refine (List.perm_insertionSort _ _).trans ?_
    show List.Perm _ ((db.assetReservations.rows.filter (liveAsset booking.id)).filterMap
      (some ∘ (patch.move slot).assetPatch))
    rw [hlive, List.filterMap_eq_map]
  · have hlive : db.orders.rows.filter (liveOrder booking.id) =
        db₀.orders.rows.filter (liveOrder booking.id) :=
      filter_of_filter hview.orders (orderMoves (patch.move slot) booking.id).owned_of_live
    rw [h.orders, hplan, hb, ← hlive]
    refine (orderMoves (patch.move slot) booking.id).filter_live ?_
    refine (List.perm_insertionSort _ _).trans ?_
    show List.Perm _ ((db.orders.rows.filter (liveOrder booking.id)).filterMap
      (some ∘ (patch.move slot).orderPatch))
    rw [hlive, List.filterMap_eq_map]
  · have hlive : db.workOrders.rows.filter (liveWorkOrder booking.id) =
        db₀.workOrders.rows.filter (liveWorkOrder booking.id) :=
      filter_of_filter hview.workOrders (workOrderMoves (patch.move slot) booking.id).owned_of_live
    rw [h.workOrders, hplan, hb, ← hlive]
    refine (workOrderMoves (patch.move slot) booking.id).filter_live ?_
    refine (List.perm_insertionSort _ _).trans ?_
    show List.Perm _ ((db.workOrders.rows.filter (liveWorkOrder booking.id)).filterMap
      (patch.move slot).workOrderPatch)
    rw [hlive]

theorem AppliedEdit.retried (h : AppliedEdit call db booking action db')
    (hbooking : db.bookings.get? booking.id = some booking)
    (hslot : db₀.slots.get? slot.id = some slot) (hof : slot.bookingId = booking.id)
    (hview : SameRowsOf db₀ db booking.id)
    (hplan : call.plan = slotPlan (env.reads db₀ booking slot patch resolutionAt) chain booking slot
      patch resolutionAt) :
    ∃ booking' slot', Retried db₀ db' booking slot patch booking' slot' := by
  obtain ⟨p, hid, hspace, hstart, hend, hcount, hpersons, hslots⟩ := slots_of_slotPlan hplan h.slots
  refine ⟨editedBooking call.plan.booking (action.statusTarget.getD booking.status) call.now booking,
    (applySlotPatch p).apply slot, ?_, rfl, rfl, ?_, rfl, hspace, hstart, hend, ?_, ?_, ?_, ?_⟩
  · rw [h.bookings, Table.get?_update, hbooking, Option.map_some,
      Table.updated_of_true (by rw [beq_self_eq_true])]
  · rw [hslots, Table.get?_update, hview.findSlot hslot hof, Option.map_some,
      Table.updated_of_true (by simp [patchesSlot, hid, hof])]
  · show p.attendeeCount.getD slot.attendeeCount = _
    rw [hcount]
    rfl
  · show p.attendeePersonIds.getD slot.attendeePersonIds = _
    rw [hpersons]
    rfl
  · have hkept : ∀ s : SlotRow, (Table.updated (patchesSlot booking.id p)
        (applySlotPatch p) s).bookingId = s.bookingId := by
      intro s
      unfold Table.updated
      split <;> rfl
    rw [hslots, show (db.slots.update (patchesSlot booking.id p) (applySlotPatch p)).rows =
      db.slots.rows.map (Table.updated (patchesSlot booking.id p) (applySlotPatch p)) from rfl,
      List.countP_map]
    simp only [Function.comp_def, hkept, List.countP_eq_length_filter]
    rw [hview.slots]
  · exact carriesRows_of_applied h rfl hview hplan

theorem Retried.frame (h : Retried db₀ db booking slot patch booking' slot')
    (hof : slot.bookingId = booking.id) (hview : SameRowsOf db db' booking.id) :
    Retried db₀ db' booking slot patch booking' slot' := by
  have hslotId : slot'.id = slot.id := (Table.get?_eq_some.mp h.hasSlot).2
  have hslot' : slot' ∈ db'.slots.rows.filter fun s => s.bookingId == booking.id := by
    rw [hview.slots]
    exact List.mem_filter.mpr ⟨(Table.get?_eq_some.mp h.hasSlot).1, by simp [h.ofBooking, hof]⟩
  refine ⟨hview.booking.trans h.hasBooking, h.requester, h.series, ?_, h.ofBooking, h.spaceId,
    h.startAt, h.endAt, h.attendeeCount, h.attendeePersonIds, ?_, ?_, ?_, ?_⟩
  · exact Table.get?_eq_some.mpr ⟨(List.mem_filter.mp hslot').1, hslotId⟩
  · rw [← h.slotCount]
    simp only [List.countP_eq_length_filter]
    rw [hview.slots]
  · rw [← h.carries.assets]
    exact filter_of_filter hview.assets (assetMoves (patch.move slot) booking.id).owned_of_live
  · rw [← h.carries.orders]
    exact filter_of_filter hview.orders (orderMoves (patch.move slot) booking.id).owned_of_live
  · rw [← h.carries.workOrders]
    exact filter_of_filter hview.workOrders
      (workOrderMoves (patch.move slot) booking.id).owned_of_live

end

/-! ## The occurrences of a series -/

section

variable {env : EditPlanEnv} {db₀ db db' : BookingDb} {patch : ScopePatch} {resolutionAt : Int}
  {call : ScopeCall} {p : Nat × EditPlan} {plans : List (Nat × EditPlan)}
  {outs : List OccurrenceEdit} {booking : BookingRow}

theorem checkEdit_ok {call : EditCall} {b : BookingRow} {action : EditAction}
    (h : checkEdit call db = .ok (b, action)) :
    db.bookings.get? call.bookingId = some b ∧ b.status ≠ .cancelled ∧
      decideApproval call.bookingId (approvalState db.approvals call.bookingId) call.plan.approval =
        .ok action := by
  unfold checkEdit at h
  split at h
  · cases h
  rename_i hbooking
  split at h
  · cases h
  rename_i hnotCancelled
  split at h
  · cases h
  split at h
  · cases h
  rename_i hdecided
  split at h
  · cases h
  split at h
  · cases h
  cases h
  exact ⟨hbooking, hnotCancelled, hdecided⟩

theorem commitOccurrence_ok {out : OccurrenceEdit}
    (h : commitOccurrence call db p = .ok (db', out)) :
    ∃ b action, checkEdit (call.edit p) db = .ok (b, action) ∧
      AppliedEdit (call.edit p) db b action db' := by
  unfold commitOccurrence at h
  split at h
  · cases h
  rename_i b action hcheck
  split at h
  · cases h
  rename_i happly
  cases h
  exact ⟨b, action, hcheck, applied_of_applyEdit happly⟩

structure Planned (env : EditPlanEnv) (db : BookingDb) (patch : ScopePatch) (resolutionAt : Int)
    (p : Nat × EditPlan) (booking : BookingRow) (slot : SlotRow) : Prop where
  hid : booking.id = p.1
  isBooking : db.bookings.get? p.1 = some booking
  isPrimary : primarySlot db p.1 = some slot
  isSlot : db.slots.get? slot.id = some slot
  hof : slot.bookingId = p.1
  plan : buildSingleSlotPlan env db p.1 slot.id patch.slotPatch resolutionAt .singleSlot = .ok p.2

theorem planned_of_planOccurrence (h : planOccurrence env db patch resolutionAt bookingId = .ok p) :
    p.1 = bookingId ∧ ∃ booking slot, Planned env db patch resolutionAt p booking slot := by
  unfold planOccurrence at h
  split at h
  · cases h
  rename_i slot hprimary
  split at h
  · cases h
  rename_i plan hplan
  cases h
  have hslot : db.slots.get? slot.id = some slot :=
    Table.get?_of_mem (List.mem_of_find?_eq_some hprimary)
  have hof : slot.bookingId = bookingId := by simpa using List.find?_some hprimary
  cases hbooking : db.bookings.get? bookingId with
  | none =>
    simp only [buildSingleSlotPlan, hbooking] at hplan
    cases hplan
  | some booking =>
    exact ⟨rfl, booking, slot, (Table.get?_eq_some.mp hbooking).2, hbooking, hprimary, hslot, hof,
      hplan⟩

theorem Planned.slotPlan_eq {slot : SlotRow}
    (h : Planned env db patch resolutionAt p booking slot) :
    p.2 = slotPlan (env.reads db booking slot patch.slotPatch resolutionAt)
      (loadCurrentApprovalChain db.approvals booking.id) booking slot patch.slotPatch resolutionAt := by
  have hbooking := h.isBooking
  have hplan := h.plan
  rw [← h.hid] at hbooking hplan
  obtain ⟨hof, hassembled, _⟩ := buildSingleSlotPlan_ok hbooking h.isSlot hplan
  exact ((assembleEditPlan_iff hbooking h.isSlot hof).mp hassembled).2

/-- Each occurrence is checked and written in a state that has its rows as they were, and they stay
as it leaves them; the other bookings are as before. -/
theorem loop_applied (hsteps : Steps (commitOccurrence call) db plans db' outs)
    (hnodup : (plans.map Prod.fst).Nodup) :
    (∀ p ∈ plans, ∃ mid mid' b action, SameRowsOf db mid p.1 ∧
        checkEdit (call.edit p) mid = .ok (b, action) ∧
          AppliedEdit (call.edit p) mid b action mid' ∧ SameRowsOf mid' db' p.1) ∧
      ∀ id, id ∉ plans.map Prod.fst → SameRowsOf db db' id := by
  induction hsteps with
  | nil db => exact ⟨fun p hp => absurd hp List.not_mem_nil, fun id _ => .refl db id⟩
  | @cons db next db' p plans out outs hhead _ ih =>
    obtain ⟨b, action, hcheck, happlied⟩ := commitOccurrence_ok hhead
    obtain ⟨hfirst, hnodup⟩ := List.nodup_cons.mp hnodup
    have hb : b.id = p.1 := (Table.get?_eq_some.mp (checkEdit_ok hcheck).1).2
    have hothers : ∀ id, id ≠ p.1 → SameRowsOf db next id :=
      fun id hne => happlied.sameRows hb hne
    obtain ⟨hrest, hframe⟩ := ih hnodup
    refine ⟨?_, ?_⟩
    · intro q hq
      rcases List.mem_cons.mp hq with rfl | hq
      · exact ⟨db, next, b, action, .refl db q.1, hcheck, happlied, hframe q.1 hfirst⟩
      · obtain ⟨mid, mid', b, action, hsame, hcheck, happlied, hkept⟩ := hrest q hq
        have hne : q.1 ≠ p.1 := fun heq => hfirst (heq ▸ List.mem_map_of_mem hq)
        exact ⟨mid, mid', b, action, (hothers q.1 hne).trans hsame, hcheck, happlied, hkept⟩
    · intro id hid
      rw [List.map_cons, List.mem_cons, not_or] at hid
      exact (hothers id hid.1).trans (hframe id hid.2)

theorem loop_retried (hsteps : Steps (commitOccurrence call) db plans db' outs)
    (hnodup : (plans.map Prod.fst).Nodup) (hp : p ∈ plans) {slot : SlotRow}
    (hplanned : Planned env db patch resolutionAt p booking slot) :
    ∃ booking' slot', Retried db db' booking slot patch.slotPatch booking' slot' := by
  obtain ⟨mid, mid', b, action, hsame, hcheck, happlied, hkept⟩ :=
    (loop_applied hsteps hnodup).1 p hp
  obtain ⟨hbooking, _, _⟩ := checkEdit_ok hcheck
  have hof : slot.bookingId = booking.id := by
    rw [hplanned.hid]
    exact hplanned.hof
  have hb : b = booking := by
    have hget : mid.bookings.get? p.1 = some b := hbooking
    rw [hsame.booking, hplanned.isBooking] at hget
    exact (Option.some.inj hget).symm
  subst hb
  rw [← hplanned.hid] at hsame hkept
  obtain ⟨booking', slot', hretried⟩ := happlied.retried (by rw [hplanned.hid]; exact hbooking)
    hplanned.isSlot hof hsame hplanned.slotPlan_eq
  exact ⟨booking', slot', hretried.frame hof hkept⟩

end

end Prequest.Booking
