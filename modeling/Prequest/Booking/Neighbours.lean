import Prequest.Booking.EditFrame

/-!
# Buffers and neighbours

The buffers of a slot are those of its room, without the ones on a side where a
live slot of the same requester is touched. Planned for slots that are edited
together they may change: a slot that comes into the room along with another one
was not its neighbour before.
-/

namespace Prequest.Booking

open Prequest.Lib Prequest.Approval Prequest.Command

def near (db : BookingDb) (requesterPersonId slotId : Nat) (touches : SlotRow → Bool)
    (k : SlotRow) : Bool :=
  k.status.blocksRoom && k.id != slotId && requesterOf db k == some requesterPersonId && touches k

def hasNeighbour (db : BookingDb) (spaceId requesterPersonId slotId : Nat)
    (touches : SlotRow → Bool) : Bool :=
  db.slots.rows.any fun k => k.spaceId == spaceId && near db requesterPersonId slotId touches k

def endsAt (startAt : Int) (k : SlotRow) : Bool := meets k.endAt startAt

def startsAt (endAt : Int) (k : SlotRow) : Bool := meets k.startAt endAt

theorem collapse_eq (db : BookingDb) (requesterPersonId : Nat) (startAt endAt : Int)
    (slots : List SlotRow) (buffers : Nat × Nat) :
    slots.foldl (collapse db requesterPersonId startAt endAt) buffers =
      (if slots.any fun k => requesterOf db k == some requesterPersonId && endsAt startAt k then 0
        else buffers.1,
      if slots.any fun k => requesterOf db k == some requesterPersonId && startsAt endAt k then 0
        else buffers.2) := by
  induction slots generalizing buffers with
  | nil => rfl
  | cons k slots ih =>
    rw [List.foldl_cons, ih, List.any_cons, List.any_cons]
    unfold collapse endsAt startsAt
    cases requesterOf db k == some requesterPersonId <;> cases meets k.endAt startAt <;>
      cases meets k.startAt endAt <;> simp

theorem snapshotBuffers_eq (env : EditPlanEnv) (db : BookingDb) (requesterPersonId slotId spaceId : Nat)
    (startAt endAt : Int) :
    env.snapshotBuffers db requesterPersonId slotId spaceId startAt endAt =
      (if hasNeighbour db spaceId requesterPersonId slotId (endsAt startAt) then 0
        else (env.space spaceId).setupBufferMinutes,
      if hasNeighbour db spaceId requesterPersonId slotId (startsAt endAt) then 0
        else (env.space spaceId).teardownBufferMinutes) := by
  unfold EditPlanEnv.snapshotBuffers snapshotBuffersForBooking
  split
  · rename_i hzero
    rw [hzero.1, hzero.2, ite_self, ite_self]
  · rw [collapse_eq, List.filter_filter, List.any_filter, List.any_filter]
    have hside : ∀ touches : SlotRow → Bool, (∀ k, touches k = true →
        (meets k.endAt startAt || meets k.startAt endAt) = true) →
          (db.slots.rows.any fun k => (!([slotId].contains k.id) && (k.spaceId == spaceId &&
            k.status.blocksRoom && (meets k.endAt startAt || meets k.startAt endAt))) &&
              (requesterOf db k == some requesterPersonId && touches k)) =
            hasNeighbour db spaceId requesterPersonId slotId touches := by
      intro touches htouches
      unfold hasNeighbour near
      congr 1
      funext k
      have hid : (!([slotId].contains k.id)) = (k.id != slotId) := by
        rw [Bool.eq_iff_iff]
        simp
      rw [hid]
      cases htouch : touches k with
      | false => simp
      | true =>
        rw [htouches k htouch]
        cases k.id != slotId <;> cases k.spaceId == spaceId <;> cases k.status.blocksRoom <;>
          cases requesterOf db k == some requesterPersonId <;> rfl
    have hends := hside (endsAt startAt) fun k hk => by
      rw [show meets k.endAt startAt = true from hk, Bool.true_or]
    have hstarts := hside (startsAt endAt) fun k hk => by
      rw [show meets k.startAt endAt = true from hk, Bool.or_true]
    rw [hends, hstarts]

/-! ## The edit of one slot -/

variable {action : EditAction} {slot : SlotRow} {booking : BookingRow}

theorem requesterOf_applied {call : EditCall} {db db' : BookingDb} {b : BookingRow}
    (h : AppliedEdit call db b action db') (k : SlotRow) :
    requesterOf db' k = requesterOf db k := by
  unfold requesterOf
  rw [h.bookings, Table.get?_update, Option.map_map]
  congr 1
  funext r
  rw [Function.comp_apply]
  unfold Table.updated
  split <;> rfl

theorem buffersAt_applied {call : EditCall} {env : EditPlanEnv} {db db' : BookingDb}
    {patch : EditPatch} {resolutionAt : Int}
    {chain : Option ApprovalConfig} (h : AppliedEdit call db booking action db')
    (hplan : call.plan = slotPlan (env.reads db booking slot patch resolutionAt) chain booking slot
      patch resolutionAt) :
    env.buffersAt db' booking slot patch = env.buffersAt db booking slot patch := by
  obtain ⟨p, hid, _, _, _, _, _, hslots⟩ := slots_of_slotPlan hplan h.slots
  have hsame : ∀ (spaceId : Nat) (touches : SlotRow → Bool),
      hasNeighbour db' spaceId booking.requesterPersonId slot.id touches =
        hasNeighbour db spaceId booking.requesterPersonId slot.id touches := by
    intro spaceId touches
    unfold hasNeighbour
    rw [hslots, show (db.slots.update (patchesSlot booking.id p) (applySlotPatch p)).rows =
      db.slots.rows.map (Table.updated (patchesSlot booking.id p) (applySlotPatch p)) from rfl,
      List.any_map]
    congr 1
    funext k
    rw [Function.comp_apply]
    unfold near
    rw [requesterOf_applied h]
    by_cases hk : k.id = slot.id
    · have hkept : (Table.updated (patchesSlot booking.id p) (applySlotPatch p) k).id = slot.id := by
        unfold Table.updated
        split <;> exact hk
      simp [hk, hkept]
    · rw [Table.updated_of_false (by simp [patchesSlot, hid, hk])]
  unfold EditPlanEnv.buffersAt
  rw [snapshotBuffers_eq, snapshotBuffers_eq, hsame, hsame]

/-! ## The edit of a series -/

structure MovedTo (spaceId : Option Nat) (edited : Nat → Prop) (k k' : SlotRow) : Prop where
  id : k'.id = k.id
  bookingId : k'.bookingId = k.bookingId
  status : k'.status = k.status
  startAt : k'.startAt = k.startAt
  endAt : k'.endAt = k.endAt
  moved : edited k.id → k'.spaceId = spaceId.getD k.spaceId
  kept : ¬edited k.id → k'.spaceId = k.spaceId

theorem MovedTo.refl (spaceId : Option Nat) (k : SlotRow) : MovedTo spaceId (fun _ => False) k k :=
  ⟨rfl, rfl, rfl, rfl, rfl, fun h => h.elim, fun _ => rfl⟩

section

variable {env : EditPlanEnv} {db₀ db db' : BookingDb} {patch : ScopePatch} {resolutionAt : Int}
  {call : ScopeCall} {plans : List (Nat × EditPlan)} {outs : List OccurrenceEdit}
  {edited : Nat → Prop} {touches : SlotRow → Bool}

theorem movedTo_step {p : Nat × EditPlan} {booking b : BookingRow}
    (hrows : List.Forall₂ (MovedTo patch.spaceId edited) db₀.slots.rows db.slots.rows)
    (hplanned : Planned env db₀ patch resolutionAt p booking slot)
    (h : AppliedEdit (call.edit p) db b action db') (hb : b.id = p.1) :
    List.Forall₂ (MovedTo patch.spaceId fun i => edited i ∨ i = slot.id) db₀.slots.rows
      db'.slots.rows := by
  have hslots := h.slots
  rw [hb, ← hplanned.hid] at hslots
  obtain ⟨sp, hid, hspace, hstart, hend, _, _, hslots⟩ :=
    slots_of_slotPlan hplanned.slotPlan_eq hslots
  rw [hslots, show (db.slots.update (patchesSlot booking.id sp) (applySlotPatch sp)).rows =
    db.slots.rows.map (Table.updated (patchesSlot booking.id sp) (applySlotPatch sp)) from rfl,
    List.forall₂_map_right_iff]
  have hmem : ∀ k ∈ db₀.slots.rows, k.id = slot.id → k = slot := by
    intro k hk hkid
    exact db₀.slots.eq_of_key_eq hk (Table.get?_eq_some.mp hplanned.isSlot).1 hkid
  have hall : ∀ k ∈ db₀.slots.rows, ∀ k', MovedTo patch.spaceId edited k k' →
      MovedTo patch.spaceId (fun i => edited i ∨ i = slot.id) k
        (Table.updated (patchesSlot booking.id sp) (applySlotPatch sp) k') := by
    intro k hk k' hmoved
    by_cases hkid : k.id = slot.id
    · obtain rfl := hmem k hk hkid
      have htarget : patchesSlot booking.id sp k' = true := by
        simp [patchesSlot, hid, hmoved.id, hmoved.bookingId, hplanned.hof, hplanned.hid]
      rw [Table.updated_of_true htarget]
      refine ⟨hmoved.id, hmoved.bookingId, hmoved.status, hstart, hend, fun _ => hspace, ?_⟩
      intro hnot
      exact absurd (.inr rfl) hnot
    · have hskip : patchesSlot booking.id sp k' = false := by
        simp [patchesSlot, hid, hmoved.id, hkid]
      rw [Table.updated_of_false hskip]
      refine ⟨hmoved.id, hmoved.bookingId, hmoved.status, hmoved.startAt, hmoved.endAt, ?_, ?_⟩
      · rintro (hedited | heq)
        · exact hmoved.moved hedited
        · exact absurd heq hkid
      · intro hnot
        exact hmoved.kept fun hedited => hnot (.inl hedited)
  exact ((List.forall₂_and_left _ _).mpr ⟨fun k hk => hk, hrows⟩).imp fun k k' hk =>
    hall k hk.1 k' hk.2

def EditedBy (db : BookingDb) (ids : List Nat) (slotId : Nat) : Prop :=
  ∃ id ∈ ids, ∃ slot, primarySlot db id = some slot ∧ slot.id = slotId

/-- After the edit of a series the slots of the plans are in the room, and the requesters are those
of before. -/
theorem loop_rooms (hsteps : Steps (commitOccurrence call) db plans db' outs)
    (hplanned : ∀ p ∈ plans, ∃ booking slot, Planned env db₀ patch resolutionAt p booking slot)
    (hrows : List.Forall₂ (MovedTo patch.spaceId edited) db₀.slots.rows db.slots.rows)
    (hrequesters : ∀ k, requesterOf db k = requesterOf db₀ k) :
    List.Forall₂ (MovedTo patch.spaceId fun i => edited i ∨ EditedBy db₀ (plans.map Prod.fst) i)
        db₀.slots.rows db'.slots.rows ∧ ∀ k, requesterOf db' k = requesterOf db₀ k := by
  induction hsteps generalizing edited with
  | nil db =>
    refine ⟨hrows.imp fun k k' hmoved => ?_, hrequesters⟩
    have hnone : ¬EditedBy db₀ (([] : List (Nat × EditPlan)).map Prod.fst) k.id := by
      rintro ⟨_, hmem, _⟩
      cases hmem
    refine ⟨hmoved.id, hmoved.bookingId, hmoved.status, hmoved.startAt, hmoved.endAt, ?_, ?_⟩
    · rintro (hedited | hedited)
      · exact hmoved.moved hedited
      · exact absurd hedited hnone
    · intro hnot
      exact hmoved.kept fun hedited => hnot (.inl hedited)
  | @cons db mid db' p plans out outs hhead _ ih =>
    obtain ⟨b, action, hcheck, happlied⟩ := commitOccurrence_ok hhead
    obtain ⟨hbooking, _, _⟩ := checkEdit_ok hcheck
    have hb : b.id = p.1 := (Table.get?_eq_some.mp hbooking).2
    obtain ⟨booking, slot, hp⟩ := hplanned p List.mem_cons_self
    obtain ⟨hrest, hrequesters'⟩ := ih (fun q hq => hplanned q (List.mem_cons_of_mem p hq))
      (movedTo_step hrows hp happlied hb)
      fun k => (requesterOf_applied happlied k).trans (hrequesters k)
    refine ⟨hrest.imp fun k k' hmoved => ?_, hrequesters'⟩
    have hiff : ((edited k.id ∨ k.id = slot.id) ∨ EditedBy db₀ (plans.map Prod.fst) k.id) ↔
        edited k.id ∨ EditedBy db₀ ((p :: plans).map Prod.fst) k.id := by
      constructor
      · rintro ((hedited | heq) | ⟨id, hid, hslot⟩)
        · exact .inl hedited
        · exact .inr ⟨p.1, List.mem_cons_self, slot, hp.isPrimary, heq.symm⟩
        · exact .inr ⟨id, List.mem_cons_of_mem _ hid, hslot⟩
      · rintro (hedited | ⟨id, hid, s, hprimary, hslot⟩)
        · exact .inl (.inl hedited)
        · rcases List.mem_cons.mp hid with rfl | hid
          · rw [hp.isPrimary] at hprimary
            cases hprimary
            exact .inl (.inr hslot.symm)
          · exact .inr ⟨id, hid, s, hprimary, hslot⟩
    exact ⟨hmoved.id, hmoved.bookingId, hmoved.status, hmoved.startAt, hmoved.endAt,
      fun h => hmoved.moved (hiff.mpr h), fun hnot => hmoved.kept fun h => hnot (hiff.mp h)⟩

/-! ## The buffers after the edit of a series -/

/-- On a side of the slot there is no buffer, or it has a neighbour already, or none of the slots that
are edited along comes to touch it. -/
def KeepsSide (db : BookingDb) (edited : Nat → Prop) (spaceId requesterPersonId slotId buffer : Nat)
    (touches : SlotRow → Bool) : Prop :=
  buffer = 0 ∨ hasNeighbour db spaceId requesterPersonId slotId touches = true ∨
    ∀ k ∈ db.slots.rows, edited k.id → near db requesterPersonId slotId touches k = false

theorem MovedTo.near_eq {spaceId : Option Nat} {k k' : SlotRow} (h : MovedTo spaceId edited k k')
    (hrequesters : ∀ k, requesterOf db k = requesterOf db₀ k) (requesterPersonId slotId : Nat)
    (htouches : touches k' = touches k) :
    near db requesterPersonId slotId touches k' = near db₀ requesterPersonId slotId touches k := by
  have hrequester : requesterOf db₀ k' = requesterOf db₀ k := by
    unfold requesterOf
    rw [h.bookingId]
  unfold near
  rw [h.status, h.id, hrequesters, hrequester, htouches]

theorem hasNeighbour_moved_iff {room : Nat}
    (hrows : List.Forall₂ (MovedTo (some room) edited) db₀.slots.rows db.slots.rows)
    (hrequesters : ∀ k, requesterOf db k = requesterOf db₀ k) (requesterPersonId slotId : Nat)
    (htouches : ∀ k k', MovedTo (some room) edited k k' → touches k' = touches k) :
    hasNeighbour db room requesterPersonId slotId touches = true ↔
      hasNeighbour db₀ room requesterPersonId slotId touches = true ∨
        ∃ k ∈ db₀.slots.rows, edited k.id ∧ near db₀ requesterPersonId slotId touches k = true := by
  unfold hasNeighbour
  simp only [List.any_eq_true, Bool.and_eq_true, beq_iff_eq]
  constructor
  · rintro ⟨k', hk', hroom, hnear⟩
    obtain ⟨k, hk, hmoved⟩ := forall₂_exists_left hrows hk'
    rw [hmoved.near_eq hrequesters _ _ (htouches k k' hmoved)] at hnear
    by_cases hedited : edited k.id
    · exact .inr ⟨k, hk, hedited, hnear⟩
    · exact .inl ⟨k, hk, by rw [← hmoved.kept hedited]; exact hroom, hnear⟩
  · have hmoves : ∀ k ∈ db₀.slots.rows, k.spaceId = room ∨ edited k.id →
        near db₀ requesterPersonId slotId touches k = true →
          ∃ k' ∈ db.slots.rows, k'.spaceId = room ∧
            near db requesterPersonId slotId touches k' = true := by
      intro k hk hroom hnear
      obtain ⟨k', hk', hmoved⟩ := forall₂_exists_right hrows hk
      refine ⟨k', hk', ?_, by rw [hmoved.near_eq hrequesters _ _ (htouches k k' hmoved)]; exact hnear⟩
      by_cases hedited : edited k.id
      · exact hmoved.moved hedited
      · rw [hmoved.kept hedited]
        exact hroom.resolve_right hedited
    rintro (⟨k, hk, hroom, hnear⟩ | ⟨k, hk, hedited, hnear⟩)
    · exact hmoves k hk (.inl hroom) hnear
    · exact hmoves k hk (.inr hedited) hnear

theorem side_eq_iff {room : Nat}
    (hrows : List.Forall₂ (MovedTo (some room) edited) db₀.slots.rows db.slots.rows)
    (hrequesters : ∀ k, requesterOf db k = requesterOf db₀ k)
    (requesterPersonId slotId buffer : Nat) (touches : SlotRow → Bool)
    (htouches : ∀ k k', MovedTo (some room) edited k k' → touches k' = touches k) :
    (if hasNeighbour db room requesterPersonId slotId touches then 0 else buffer) =
        (if hasNeighbour db₀ room requesterPersonId slotId touches then 0 else buffer) ↔
      KeepsSide db₀ edited room requesterPersonId slotId buffer touches := by
  have hafter := hasNeighbour_moved_iff hrows hrequesters requesterPersonId slotId htouches
  unfold KeepsSide
  cases hbefore : hasNeighbour db₀ room requesterPersonId slotId touches with
  | true =>
    rw [hafter.mpr (.inl hbefore)]
    exact iff_of_true rfl (.inr (.inl rfl))
  | false =>
    rw [hbefore] at hafter
    rw [if_neg Bool.false_ne_true]
    cases hnow : hasNeighbour db room requesterPersonId slotId touches with
    | true =>
      rw [if_pos rfl]
      obtain ⟨k, hk, hedited, hnear⟩ := (hafter.mp hnow).resolve_left Bool.false_ne_true
      constructor
      · intro hzero
        exact .inl hzero.symm
      · rintro (hzero | hfalse | hnone)
        · exact hzero.symm
        · cases hfalse
        · rw [hnone k hk hedited] at hnear
          cases hnear
    | false =>
      rw [if_neg Bool.false_ne_true]
      refine iff_of_true rfl (.inr (.inr ?_))
      intro k hk hedited
      rw [Bool.eq_false_iff]
      intro hnear
      rw [hafter.mpr (.inr ⟨k, hk, hedited, hnear⟩)] at hnow
      cases hnow

/-- The edit of a series leaves the buffers of an occurrence exactly when, on either side, no other
occurrence comes to touch it. -/
theorem buffersAt_moved_iff
    (hrows : List.Forall₂ (MovedTo patch.spaceId edited) db₀.slots.rows db.slots.rows)
    (hrequesters : ∀ k, requesterOf db k = requesterOf db₀ k) :
    env.buffersAt db booking slot patch.slotPatch = env.buffersAt db₀ booking slot patch.slotPatch ↔
      ∀ room, patch.spaceId = some room →
        KeepsSide db₀ edited room booking.requesterPersonId slot.id
            (env.space room).setupBufferMinutes (endsAt slot.startAt) ∧
          KeepsSide db₀ edited room booking.requesterPersonId slot.id
            (env.space room).teardownBufferMinutes (startsAt slot.endAt) := by
  unfold EditPlanEnv.buffersAt
  rw [snapshotBuffers_eq, snapshotBuffers_eq]
  cases hspace : patch.spaceId with
  | none =>
    rw [hspace] at hrows
    have hsame : ∀ (spaceId : Nat) (touches : SlotRow → Bool),
        (∀ k k', MovedTo none edited k k' → touches k' = touches k) →
          hasNeighbour db spaceId booking.requesterPersonId slot.id touches =
            hasNeighbour db₀ spaceId booking.requesterPersonId slot.id touches := by
      intro spaceId touches htouches
      unfold hasNeighbour
      generalize db₀.slots.rows = rows, db.slots.rows = rows' at hrows
      induction hrows with
      | nil => rfl
      | @cons k k' rows rows' hmoved _ ih =>
        have hroom : k'.spaceId = k.spaceId := by
          by_cases hedited : edited k.id
          · exact hmoved.moved hedited
          · exact hmoved.kept hedited
        rw [List.any_cons, List.any_cons, ih, hroom,
          hmoved.near_eq hrequesters _ _ (htouches k k' hmoved)]
    refine iff_of_true ?_ ?_
    · rw [hsame _ _ fun k k' hmoved => by rw [endsAt, endsAt, hmoved.endAt],
        hsame _ _ fun k k' hmoved => by rw [startsAt, startsAt, hmoved.startAt]]
    · intro room hroom
      cases hroom
  | some room =>
    rw [hspace] at hrows
    have hends := side_eq_iff hrows hrequesters booking.requesterPersonId slot.id
      (env.space room).setupBufferMinutes (endsAt slot.startAt)
      fun k k' hmoved => by rw [endsAt, endsAt, hmoved.endAt]
    have hstarts := side_eq_iff hrows hrequesters booking.requesterPersonId slot.id
      (env.space room).teardownBufferMinutes (startsAt slot.endAt)
      fun k k' hmoved => by rw [startsAt, startsAt, hmoved.startAt]
    have htarget : patch.slotPatch.spaceId.getD slot.spaceId = room := by
      show patch.spaceId.getD slot.spaceId = room
      rw [hspace]
      rfl
    rw [htarget, Prod.mk.injEq]
    constructor
    · rintro ⟨hsetup, hteardown⟩ room' hroom
      cases hroom
      exact ⟨hends.mp hsetup, hstarts.mp hteardown⟩
    · intro hkeeps
      obtain ⟨hsetup, hteardown⟩ := hkeeps room rfl
      exact ⟨hends.mpr hsetup, hstarts.mpr hteardown⟩

end

end Prequest.Booking
