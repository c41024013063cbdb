import Prequest.Booking.EditReplay
import Prequest.Booking.World
import Prequest.Lib.Exclusion

/-!
# Nobody is booked into a room twice

A live slot holds its room for its window and its buffers. Slots are written by
bookings and their edits, by approvals, cancellations and skips, by check-ins,
the auto-release, a restore and the series. Some of these writes are checked by
`booking_slots_no_overlap`, the others only end slots or let a slot that waits
go on, so no run of them puts two slots into one room at one time.

* `RoomsApart.step`: one step, by anybody.
* `rooms_heldOnce`: every run.
-/

namespace Prequest.Booking

open Prequest.Lib Prequest.Approval Prequest.Recurrence

/-- The room that a slot holds, at each instant. -/
def SlotRow.held (s : SlotRow) : Set (Nat × Int) := fun p =>
  s.status.blocksRoom = true ∧ s.spaceId = p.1 ∧ s.timeRange.1 ≤ p.2 ∧ p.2 < s.timeRange.2

def Collides (s t : SlotRow) : Prop := s.overlaps t = true

/-- No two slots hold one room at one time. -/
def RoomsApart (slots : Table SlotRow) : Prop := slots.Excludes Collides

theorem roomsApart_iff {slots : Table SlotRow} : RoomsApart slots ↔ hasOverlap slots = false := by
  unfold RoomsApart
  rw [Table.excludes_iff, Bool.eq_false_iff]
  constructor
  · intro h hany
    obtain ⟨s, hs, hrest⟩ := List.any_eq_true.mp hany
    obtain ⟨t, ht, hboth⟩ := List.any_eq_true.mp hrest
    rw [Bool.and_eq_true, bne_iff_ne] at hboth
    exact h s hs t ht hboth.1 hboth.2
  · intro h s hs t ht hne hcollides
    refine h (List.any_eq_true.mpr ⟨s, hs, List.any_eq_true.mpr ⟨t, ht, ?_⟩⟩)
    rw [Bool.and_eq_true, bne_iff_ne]
    exact ⟨hne, hcollides⟩

theorem collides_of_meet (s t : SlotRow) (h : ¬Disjoint s.held t.held) : Collides s t := by
  obtain ⟨p, ⟨hs, hspace, hfrom, hto⟩, ht, hspace', hfrom', hto'⟩ := Set.not_disjoint_iff.mp h
  simp only [Collides, SlotRow.overlaps, Bool.and_eq_true, beq_iff_eq, decide_eq_true_eq]
  exact ⟨⟨⟨⟨hspace.trans hspace'.symm, hs⟩, ht⟩, by omega⟩, by omega⟩

/-! ## Writes -/

/-- The slot `s'` is where `s` was, and holds the room only if `s` did. -/
structure HoldsLess (s' s : SlotRow) : Prop where
  spaceId : s'.spaceId = s.spaceId
  timeRange : s'.timeRange = s.timeRange
  blocks : s'.status.blocksRoom = true → s.status.blocksRoom = true

theorem HoldsLess.refl (s : SlotRow) : HoldsLess s s := ⟨rfl, rfl, id⟩

theorem HoldsLess.collides {s s' t t' : SlotRow} (hs : HoldsLess s' s) (ht : HoldsLess t' t)
    (h : Collides s' t') : Collides s t := by
  simp only [Collides, SlotRow.overlaps, Bool.and_eq_true, beq_iff_eq, decide_eq_true_eq,
    hs.spaceId, ht.spaceId, hs.timeRange, ht.timeRange] at h ⊢
  obtain ⟨⟨⟨⟨hspace, hsblocks⟩, htblocks⟩, hmeet⟩, hmeet'⟩ := h
  exact ⟨⟨⟨⟨hspace, hs.blocks hsblocks⟩, ht.blocks htblocks⟩, hmeet⟩, hmeet'⟩

section

variable {slots slots' : Table SlotRow}

theorem RoomsApart.update (h : RoomsApart slots) {p : SlotRow → Bool} {f : Table.Assignment SlotRow}
    (hless : ∀ s ∈ slots.rows, p s = true → HoldsLess (f.apply s) s) :
    RoomsApart (slots.update p f) := by
  refine Table.Excludes.update ?_ HoldsLess.refl h hless
  exact fun hs ht => hs.collides ht

theorem roomsApart_of_not (h : ¬hasOverlap slots = true) : RoomsApart slots :=
  roomsApart_iff.mpr (Bool.eq_false_iff.mpr h)

theorem RoomsApart.append (h : RoomsApart slots) {slot : SlotRow}
    (hfree : isTaken slots slot = false) (hrows : slots'.rows = slots.rows ++ [slot]) :
    RoomsApart slots' := by
  refine Table.Excludes.append (fun {s t} hst => ?_) h hrows fun s hs hcollides => ?_
  · exact (overlaps_comm t s).trans hst
  · have htaken : isTaken slots slot = true := List.any_eq_true.mpr ⟨s, hs, hcollides⟩
    rw [hfree] at htaken
    cases htaken

theorem RoomsApart.applySlotPatches (h : RoomsApart slots) {bookingId : Nat}
    {patches : List EditPlanSlotPatch}
    (hok : applySlotPatches slots bookingId patches = .ok slots') : RoomsApart slots' := by
  induction patches generalizing slots with
  | nil =>
    cases hok
    exact h
  | cons patch patches ih =>
    simp only [Booking.applySlotPatches, List.foldlM_cons] at hok
    by_cases hoverlap : hasOverlap
        (slots.update (patchesSlot bookingId patch) (applySlotPatch patch)) = true
    · rw [if_pos hoverlap] at hok
      cases hok
    · rw [if_neg hoverlap] at hok
      exact ih (roomsApart_of_not hoverlap) hok

end

/-! ## The functions of the database -/

section

variable {store store' : BookingStore} {db db' : BookingDb} {uuid : Orders.PlanUuid → Nat}
  {plan : Orders.AttachPlan} {result : BookingResult} {key : String}
  {valid : BookingInput → Orders.AttachPlan → Bool} {now : Nat} {input : BookingInput}

theorem RoomsApart.createOne (h : RoomsApart db.slots) (rooms : Nat → TargetSpace) (c : Candidate) :
    RoomsApart (createOne rooms db c).slots := by
  unfold Booking.createOne
  split
  · rename_i hok
    unfold create insertCandidate at hok
    split at hok
    · cases hok
    split at hok
    · split at hok
      · cases hok
      · rename_i hfree
        cases hok
        exact roomsApart_of_not hfree
    · cases hok
  · exact h

theorem insertPlan_apart (hok : insertPlan uuid db input plan key now = .ok db') :
    RoomsApart db'.slots := by
  unfold insertPlan at hok
  split at hok
  · cases hok
  split at hok
  · cases hok
  split at hok
  · cases hok
  rename_i hfree
  iterate 4
    split at hok
    · cases hok
  simp only at hok
  split at hok
  · cases hok
  · cases hok
    exact roomsApart_of_not hfree

theorem RoomsApart.createBooking (h : RoomsApart db.slots) {tables tables' : CreateStore}
    {result : CreateResult} (hdb : tables.db = db)
    (hok : createBookingWithAttachPlan uuid valid tables input plan key now = .ok (tables', result)) :
    RoomsApart tables'.db.slots := by
  unfold createBookingWithAttachPlan at hok
  split at hok
  · cases hok
  · cases hok
    rw [hdb]
    exact h
  · split at hok
    · cases hok
    split at hok
    · cases hok
    split at hok
    · cases hok
    · rename_i hinsert
      cases hok
      exact insertPlan_apart hinsert

theorem RoomsApart.attachServices (h : RoomsApart db.slots)
    {tables tables' : AttachStore} {bookingId : Nat} {result : CreateResult} (hdb : tables.db = db)
    (hok : attachServicesToExistingBooking uuid valid tables bookingId plan key now =
      .ok (tables', result)) : RoomsApart tables'.db.slots := by
  subst hdb
  unfold attachServicesToExistingBooking at hok
  split at hok
  · cases hok
  split at hok
  · cases hok
  · cases hok
    exact h
  · split at hok
    · cases hok
    split at hok
    · cases hok
    split at hok
    · cases hok
    split at hok
    · cases hok
    · rename_i hattach
      cases hok
      obtain ⟨_, _, _, hslots⟩ := insertServices_eq_ok.mp hattach
      rw [hslots]
      exact h

theorem RoomsApart.editBooking (h : RoomsApart store.db.slots) {call : EditCall}
    (hok : editBooking store call = .ok (store', result)) : RoomsApart store'.db.slots := by
  obtain ⟨hgated, _⟩ := editBooking_eq_gated hok
  rcases gated_ok hgated with ⟨rfl, _⟩ | ⟨_, _, b, action, _, happlied⟩
  · exact h
  · exact h.applySlotPatches happlied.slots

theorem RoomsApart.editBookingScope (h : RoomsApart store.db.slots) {call : ScopeCall}
    {dryRun : Bool} {result : ScopeResult}
    (hok : editBookingScope store call dryRun = .ok (store', result)) :
    RoomsApart store'.db.slots := by
  obtain ⟨hkey, hvalid, hknown⟩ := editBookingScope_ok hok
  rw [editBookingScope_eq hkey hvalid hknown] at hok
  cases dryRun with
  | true =>
    obtain ⟨_, _, heq⟩ := map_eq_ok.mp hok
    cases heq
    exact h
  | false =>
    rcases run_ok hok with ⟨rfl, _⟩ | ⟨_, _, _, _, hsteps, _, _⟩
    · exact h
    refine hsteps.invariant (I := fun db => RoomsApart db.slots) ?_ h
    intro p _ db db' out hdb hcommit
    obtain ⟨b, action, _, happlied⟩ := commitOccurrence_ok hcommit
    exact hdb.applySlotPatches happlied.slots

theorem RoomsApart.cancelBooking (h : RoomsApart store.db.slots) {call : CancelCall}
    (hok : cancelBookingWithCascade store call = .ok (store', result)) :
    RoomsApart store'.db.slots := by
  rcases cancelBooking_scope hok with ⟨_, hscope⟩ | ⟨_, hdb⟩
  · rw [hscope.slots]
    exact h.update fun s _ _ => ⟨rfl, rfl, nofun⟩
  · rw [hdb]
    exact h

theorem RoomsApart.cancelOrderLines (h : RoomsApart store.db.slots) {call : CancelLinesCall}
    (hok : cancelOrderLinesWithCascade store call = .ok (store', result)) :
    RoomsApart store'.db.slots := by
  cases cancelOrderLines_cases hok with
  | cached _ hsame =>
    rw [hsame]
    exact h
  | done _ _ outbox _ hdb =>
    rw [hdb]
    exact RoomsApart.update h fun s _ _ => ⟨rfl, rfl, nofun⟩

theorem RoomsApart.grantOne (h : RoomsApart db.slots) (ruleInTenant : Nat → Bool)
    (call : BookingGrantCall) : RoomsApart (grantOne ruleInTenant db call).slots := by
  cases grantOne_step ruleInTenant db call with
  | unchanged hsame =>
    rw [hsame]
    exact h
  | answered _ _ hsame =>
    rw [hsame]
    exact h
  | resolved _ _ _ _ hslots =>
    rw [hslots]
    refine RoomsApart.update h fun s _ hwaits => ⟨rfl, rfl, fun _ => ?_⟩
    -- A slot that waits holds its room already.
    have hpending : s.status = .pendingApproval := by simpa using (Bool.and_eq_true_iff.mp hwaits).2
    rw [hpending]
    rfl

/-! ## The services -/

theorem RoomsApart.serviceStep (h : RoomsApart db.slots) (now : Int) (call : ServiceCall) :
    RoomsApart (serviceStep db now call).1.slots := by
  cases call with
  | idle | scan | checkInBooking b | releaseBooking b due => exact h
  | checkIn b =>
    simp only [Booking.serviceStep]
    cases checkInRead db b now with
    | error e => exact h
    | ok slot => exact h
  | checkInSlot b slotId checkedInAt =>
    simp only [Booking.serviceStep]
    cases hwrite : checkInWrite db slotId checkedInAt with
    | error e => exact h
    | ok db' =>
      simp only [checkInWrite] at hwrite
      split at hwrite
      · cases hwrite
      · rename_i hfree
        cases hwrite
        exact roomsApart_of_not fun hoverlap => hfree (by rw [hoverlap]; rfl)
  | release due =>
    cases due with
    | nil => exact h
    | cons slot due =>
      simp only [Booking.serviceStep]
      split
      · exact h.update fun s _ _ => ⟨rfl, rfl, fun hblocks => by cases hblocks⟩
      · exact h

theorem RoomsApart.restore (h : RoomsApart db.slots) (call : RestoreCall) :
    RoomsApart (restore db call).1.slots := by
  unfold Booking.restore
  split
  · exact h
  split
  · exact h
  split
  · exact h
  split
  · exact h
  split
  · exact h
  · rename_i hfree
    exact roomsApart_of_not hfree

theorem RoomsApart.loop (ctx : LoopContext) (existing : List Nat) (occs : List Occurrence)
    {s : LoopState} (h : RoomsApart s.db.slots) :
    RoomsApart (ctx.loop existing occs s).db.slots := by
  induction occs generalizing s with
  | nil => exact h
  | cons occ occs ih =>
    unfold LoopContext.loop
    split
    · exact h
    split
    · exact ih h
    refine ih ?_
    rcases tryOccurrence_cases ctx occ s with hsame | ⟨booking, slot, hinsert⟩
    · rw [hsame]
      exact h
    · obtain ⟨hfree, _, bookings, slots, hdb, _, hrows⟩ := insertOccurrence_ok hinsert
      rw [hdb]
      exact h.append hfree hrows

theorem RoomsApart.materialize (h : RoomsApart store.db.slots) {calendars : Nat → List Int}
    {seriesId : Nat} {call : MaterializeCall} {out : List Nat × Nat}
    (hok : materialize calendars store seriesId call = .ok (store', out)) :
    RoomsApart store'.db.slots := by
  unfold Recurrence.materialize at hok
  split at hok
  · cases hok
  split at hok
  · cases hok
  split at hok
  · cases hok
  split at hok
  · cases hok
    exact h
  split at hok
  · cases hok
    exact RoomsApart.loop _ _ _ h
  · cases hok
  · cases hok

end

/-! ## Runs -/

section

variable {w : BookingWorld} (ruleInTenant : Nat → Bool) (uuid : Orders.PlanUuid → Nat)
  (valid : BookingInput → Orders.AttachPlan → Bool)

theorem RoomsApart.lifecycle (h : RoomsApart w.store.db.slots) (action : LifecycleAction) :
    RoomsApart (lifecycleStep ruleInTenant w.toLifecycleWorld action).store.db.slots := by
  cases action with
  | startCheckIn | startScan | stop => exact h
  | advance i now => exact h.serviceStep now (w.calls i)
  | grant call => exact h.grantOne ruleInTenant call
  | cancel call =>
    simp only [lifecycleStep, commandOne]
    split
    · rename_i hok
      exact h.cancelBooking hok
    · exact h

theorem RoomsApart.step (h : RoomsApart w.store.db.slots) (action : BookingAction) :
    RoomsApart (bookingStep ruleInTenant uuid valid w action).store.db.slots := by
  cases action with
  | lifecycle action => exact h.lifecycle ruleInTenant action
  | create input plan key now =>
    exact committed_invariant (I := fun tables : CreateStore => RoomsApart tables.db.slots) h
      fun tables' out hok => h.createBooking rfl hok
  | attach bookingId plan key now =>
    exact committed_invariant (I := fun tables : AttachStore => RoomsApart tables.db.slots) h
      fun tables' out hok => h.attachServices rfl hok
  | createSlot rooms c => exact h.createOne rooms c
  | edit call =>
    exact committed_invariant (I := fun store : BookingStore => RoomsApart store.db.slots) h
      fun _ _ hok => h.editBooking hok
  | editScope call dryRun =>
    exact committed_invariant (I := fun store : BookingStore => RoomsApart store.db.slots) h
      fun _ _ hok => h.editBookingScope hok
  | cancelLines call =>
    exact committed_invariant (I := fun store : BookingStore => RoomsApart store.db.slots) h
      fun _ _ hok => h.cancelOrderLines hok
  | split call =>
    refine committed_invariant (I := fun store : BookingStore => RoomsApart store.db.slots) h
      fun store' _ hok => ?_
    rcases split_cases hok with ⟨rfl, _⟩ | ⟨_, _, hdone⟩
    · exact h
    · rw [hdone.db]
      exact h
  | restore call => exact h.restore call
  | skip ctx bookedBy id =>
    simp only [bookingStep]
    split
    · rename_i hok
      unfold skipOccurrence at hok
      split at hok
      · cases hok
      split at hok
      · cases hok
      split at hok
      · cases hok
      · cases hok
        exact RoomsApart.update h fun s _ _ => ⟨rfl, rfl, nofun⟩
    · exact h
  | materialize calendars seriesId call =>
    exact committed_invariant (I := fun store : BookingStore => RoomsApart store.db.slots) h
      fun _ _ hok => h.materialize hok

/-- Whatever happens to bookings, and in whatever order, no two slots hold a room at one instant. -/
theorem rooms_heldOnce (hstart : hasOverlap w.store.db.slots = false)
    (actions : List BookingAction) :
    {s | s ∈ (runBookings ruleInTenant uuid valid w actions).store.db.slots.rows}.PairwiseDisjoint
      SlotRow.held := by
  have hrun : RoomsApart (runBookings ruleInTenant uuid valid w actions).store.db.slots :=
    run_invariant (I := fun w : BookingWorld => RoomsApart w.store.db.slots)
      (fun _ action hw => hw.step ruleInTenant uuid valid action) (roomsApart_iff.mpr hstart) actions
  exact hrun.pairwiseDisjoint collides_of_meet

/-- Room 1 is booked from 0 to 60, and by the next booking from 60 to 120. -/
def twoBookings : BookingStore where
  db :=
    { bookings := Table.empty.putAll
        [{ id := 1, status := .confirmed, locationId := 1, startAt := 0, endAt := 60 },
          { id := 2, status := .confirmed, locationId := 1, startAt := 60, endAt := 120 }]
      slots := Table.empty.putAll
        [{ id := 1, bookingId := 1, spaceId := 1, startAt := 0, endAt := 60, status := .confirmed },
          { id := 2, bookingId := 2, spaceId := 1, startAt := 60, endAt := 120,
            status := .confirmed }]
      approvals := Table.empty
      orders := Table.empty
      orderLineItems := Table.empty }

def walkIn (id : Nat) (startAt endAt : Int) : BookingAction :=
  .createSlot (fun _ => {})
    { bookingId := id, slotId := id, requesterPersonId := 9, spaceId := 1, startAt, endAt }

/-- A booking across the two is refused; the first is cancelled, its window is taken by another, and
restoring it is refused. -/
theorem rooms_heldOnce_restored :
    let slots := (runBookings (fun _ => true) (fun _ => 0) (fun _ _ => true)
      { store := twoBookings, calls := fun _ => .idle }
      [walkIn 3 30 90, .lifecycle (.cancel cancelOneLine), walkIn 4 0 60,
        .restore { bookingId := 1, now := 20 }]).store.db.slots
    {s | s ∈ slots.rows}.PairwiseDisjoint SlotRow.held ∧
      slots.rows.map (fun s => (s.id, s.status)) =
        [(1, .cancelled), (2, .confirmed), (4, .confirmed)] :=
  ⟨rooms_heldOnce _ _ _ (by decide) _, by decide +kernel⟩

end

end Prequest.Booking
