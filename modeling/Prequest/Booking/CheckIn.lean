import Prequest.Booking.CancelScope
import Prequest.Booking.ConflictGuard
import Prequest.Booking.StatusAgreement

/-!
# Check-in and auto-release

A person checks in to the primary slot of a booking; a slot that nobody checks in
to is released by a scan. Both services read first and write later, slot and
booking apart, while bookings are cancelled and approvals answered by
transactions of the database.

The release of a slot looks at its status again; the check-in does not. Either
service then sets the status of the booking without a look at its other slots.

* `lifecycle_of_guarded`: the laws for every run that meets it.
-/

namespace Prequest.Booking

open Prequest.Lib Prequest.Approval Prequest.Command

/-! ## The services -/

inductive CheckInError where
  | bookingNotFound
  | alreadyCheckedIn
  | notConfirmed (status : BookingStatus)
  | tooEarly
  | alreadyEnded
  | checkInFailed
  deriving DecidableEq, Repr

/-- The read and the checks of `checkIn`: the slot to check in to. -/
def checkInRead (db : BookingDb) (bookingId : Nat) (now : Int) : Except CheckInError SlotRow :=
  match primarySlot db bookingId with
  | none => .error .bookingNotFound
  | some slot =>
      if slot.status = .checkedIn then .error .alreadyCheckedIn
      else if slot.status ≠ .confirmed then .error (.notConfirmed slot.status)
      else if now < slot.startAt - 15 * 60000 then .error .tooEarly
      else if slot.endAt < now then .error .alreadyEnded
      else .ok slot

def checkInSlot (checkedInAt : Int) : Table.Assignment SlotRow :=
  ⟨fun s => { s with status := .checkedIn, checkedInAt := some checkedInAt }, fun _ => rfl⟩

def checkInWrite (db : BookingDb) (slotId : Nat) (checkedInAt : Int) :
    Except CheckInError BookingDb :=
  let slots := db.slots.update (fun s => s.id == slotId) (checkInSlot checkedInAt)
  if hasOverlap slots || (db.slots.get? slotId).isNone then .error .checkInFailed
  else .ok { db with slots := slots }

theorem key_mirrored (status : BookingStatus) (b : BookingRow) :
    Keyed.key { b with status := status } = Keyed.key b := rfl

/-- The status of a booking, for the lists that do not look at slots. -/
def mirrorStatus (db : BookingDb) (bookingId : Nat) (status : BookingStatus) : BookingDb :=
  { db with
    bookings := db.bookings.update (fun b => b.id == bookingId)
      ⟨fun b => { b with status := status }, key_mirrored status⟩ }

structure DueSlot where
  id : Nat
  bookingId : Nat
  deriving DecidableEq, Repr

/-- Nobody has checked in to the slot, which started within the last day. -/
def awaitsCheckIn (now : Int) (s : SlotRow) : Bool :=
  s.checkInRequired && s.status == .confirmed && s.checkedInAt.isNone &&
    decide (now - 24 * 60 * 60 * 1000 ≤ s.startAt) && decide (s.startAt ≤ now)

/-- The query stops at 500 slots, some of which may still be within their grace. -/
def dueSlots (db : BookingDb) (now : Int) : List DueSlot :=
  (((db.slots.rows.filter (awaitsCheckIn now)).take 500).filter fun s =>
    decide (s.startAt + s.checkInGraceMinutes * 60 * 1000 < now)).map fun s => ⟨s.id, s.bookingId⟩

def releasable (slotId : Nat) (s : SlotRow) : Bool :=
  s.id == slotId && s.status == .confirmed && s.checkedInAt.isNone

def releaseSlot (releasedAt : Int) : Table.Assignment SlotRow :=
  ⟨fun s => { s with status := .released, releasedAt := some releasedAt }, fun _ => rfl⟩

inductive ServiceCall where
  | idle
  | checkIn (bookingId : Nat)
  | checkInSlot (bookingId slotId : Nat) (checkedInAt : Int)
  | checkInBooking (bookingId : Nat)
  | scan
  | release (due : List DueSlot)
  | releaseBooking (bookingId : Nat) (due : List DueSlot)
  deriving DecidableEq, Repr

/-- The next round trip of a call. -/
def serviceStep (db : BookingDb) (now : Int) : ServiceCall → BookingDb × ServiceCall
  | .idle => (db, .idle)
  | .checkIn bookingId =>
      match checkInRead db bookingId now with
      | .error _ => (db, .idle)
      | .ok slot => (db, .checkInSlot bookingId slot.id now)
  | .checkInSlot bookingId slotId checkedInAt =>
      match checkInWrite db slotId checkedInAt with
      | .error _ => (db, .idle)
      | .ok db => (db, .checkInBooking bookingId)
  | .checkInBooking bookingId => (mirrorStatus db bookingId .checkedIn, .idle)
  | .scan => (db, .release (dueSlots db now))
  | .release [] => (db, .idle)
  | .release (slot :: due) =>
      if db.slots.rows.any (releasable slot.id) then
        ({ db with slots := db.slots.update (releasable slot.id) (releaseSlot now) },
          .releaseBooking slot.bookingId due)
      else (db, .release due)
  | .releaseBooking bookingId due => (mirrorStatus db bookingId .released, .release due)

/-- The loop of a scan with the database to itself. -/
def releaseAll (now : Int) (db : BookingDb) : List DueSlot → BookingDb
  | [] => db
  | slot :: due =>
      if db.slots.rows.any (releasable slot.id) then
        releaseAll now (mirrorStatus
          { db with slots := db.slots.update (releasable slot.id) (releaseSlot now) }
          slot.bookingId .released) due
      else releaseAll now db due

/-- A scan that nobody interrupts. -/
def autoReleaseScan (db : BookingDb) (now : Int) : BookingDb := releaseAll now db (dueSlots db now)

/-- The tables, and the calls that run over them. -/
structure LifecycleWorld where
  store : BookingStore
  calls : Nat → ServiceCall

/-- What can happen next. -/
inductive LifecycleAction where
  | startCheckIn (i bookingId : Nat)
  | startScan (i : Nat)
  | advance (i : Nat) (now : Int)
  | stop (i : Nat)
  | cancel (call : CancelCall)
  | grant (call : BookingGrantCall)

def lifecycleStep (ruleInTenant : Nat → Bool) (w : LifecycleWorld) : LifecycleAction → LifecycleWorld
  | .startCheckIn i bookingId => { w with calls := Function.update w.calls i (.checkIn bookingId) }
  | .startScan i => { w with calls := Function.update w.calls i .scan }
  | .advance i now =>
      { store := { w.store with db := (serviceStep w.store.db now (w.calls i)).1 }
        calls := Function.update w.calls i (serviceStep w.store.db now (w.calls i)).2 }
  | .stop i => { w with calls := Function.update w.calls i .idle }
  | .cancel call => { w with store := commandOne ruleInTenant w.store (.cancel call) }
  | .grant call => { w with store := commandOne ruleInTenant w.store (.grant call) }

/-! ## The laws -/

/-- A booking that was released or cancelled has no live slot, and one that is checked in has a slot
that is. -/
structure MirrorsSlots (db : BookingDb) (bookingId : Nat) : Prop where
  ended : db.status? bookingId = some .released ∨ db.status? bookingId = some .cancelled →
    AllFinished db bookingId
  checkedIn : db.status? bookingId = some .checkedIn →
    ∃ s ∈ db.slots.rows, s.bookingId = bookingId ∧ s.status = .checkedIn

structure Lifecycle (ruleInTenant : Nat → Bool) (w : LifecycleWorld) (bookingId : Nat)
    (actions : List LifecycleAction) : Prop where
  staysEnded : ∀ pre mid post, actions = pre ++ mid ++ post →
    ∀ s ∈ (run (lifecycleStep ruleInTenant) w pre).store.db.slots.rows, s.bookingId = bookingId →
      s.status = .released ∨ s.status = .cancelled →
        ∀ s' ∈ (run (lifecycleStep ruleInTenant) w (pre ++ mid)).store.db.slots.rows, s'.id = s.id →
          s'.status ≠ .checkedIn ∧ s'.status ≠ .confirmed
  notReleased : ∀ pre action post, actions = pre ++ action :: post →
    ∀ s ∈ (run (lifecycleStep ruleInTenant) w pre).store.db.slots.rows, s.bookingId = bookingId →
      s.status = .checkedIn →
        ∀ s' ∈ (run (lifecycleStep ruleInTenant) w (pre ++ [action])).store.db.slots.rows,
          s'.id = s.id → s'.status ≠ .released
  mirrors : ∀ pre post, actions = pre ++ post →
    MirrorsSlots (run (lifecycleStep ruleInTenant) w pre).store.db bookingId

/-! ## The condition -/

/-- A check-in writes a slot that is live, unless its room was taken, and a booking that has a
checked-in slot; a scan writes a booking whose slots are finished. -/
def ServiceKeeps (bookingId : Nat) (db : BookingDb) : ServiceCall → Prop
  | .checkInSlot _ slotId checkedInAt =>
      hasOverlap (db.slots.update (fun s => s.id == slotId) (checkInSlot checkedInAt)) = false →
        ∀ s ∈ db.slots.rows, s.id = slotId → s.bookingId = bookingId → s.status.terminal = false
  | .checkInBooking b => b = bookingId → ∃ s ∈ db.slots.rows,
      s.bookingId = bookingId ∧ s.status = .checkedIn
  | .releaseBooking b _ => b = bookingId → AllFinished db bookingId
  | _ => True

def RejectionKeeps (bookingId : Nat) (db : BookingDb) (call : BookingGrantCall) : Prop :=
  ∀ a, BookingAnswers db call .rejected a → a.targetEntityId = bookingId →
    db.status? bookingId = some .pendingApproval → ∀ s ∈ db.slots.rows,
      s.bookingId = bookingId → s.status.terminal = false → s.status = .pendingApproval

def KeepsLifecycle (bookingId : Nat) (w : LifecycleWorld) : LifecycleAction → Prop
  | .advance i _ => ServiceKeeps bookingId w.store.db (w.calls i)
  | .grant call => RejectionKeeps bookingId w.store.db call
  | .startCheckIn .. | .startScan _ | .stop _ | .cancel _ => True

/-! ## Slots -/

section

variable {bookingId : Nat} {f : Table.Assignment SlotRow} {slots : Table SlotRow}

/-- A slot of the booking that is finished keeps its status, and none that is checked in is
released. -/
def KeepsEnded (bookingId : Nat) (slots slots' : Table SlotRow) : Prop :=
  ∀ s' ∈ slots'.rows, ∃ s ∈ slots.rows, s.id = s'.id ∧ s.bookingId = s'.bookingId ∧
    (s.bookingId = bookingId → s.status.terminal = true → s'.status = s.status) ∧
    (s.status = .checkedIn → s'.status ≠ .released)

theorem KeepsEnded.refl (slots : Table SlotRow) : KeepsEnded bookingId slots slots := by
  intro s hs
  exact ⟨s, hs, rfl, rfl, fun _ _ => rfl, fun hchecked => by rw [hchecked]; decide⟩

theorem KeepsEnded.of_update {p : SlotRow → Bool}
    (hbooking : ∀ s, (f.apply s).bookingId = s.bookingId)
    (hlive : ∀ s ∈ slots.rows, p s = true → s.bookingId = bookingId → s.status.terminal = false)
    (hreleased : ∀ s ∈ slots.rows, p s = true → s.status = .checkedIn →
      (f.apply s).status ≠ .released) : KeepsEnded bookingId slots (slots.update p f) := by
  intro s' hs'
  obtain ⟨s, hs, ⟨hp, rfl⟩ | ⟨_, rfl⟩⟩ := Table.mem_update_iff.mp hs'
  · refine ⟨s, hs, (f.key_apply s).symm, (hbooking s).symm, ?_, hreleased s hs hp⟩
    intro hb hterminal
    rw [hlive s hs hp hb] at hterminal
    cases hterminal
  · exact KeepsEnded.refl slots s' hs

variable {db db' : BookingDb} {ruleInTenant : Nat → Bool} {w : LifecycleWorld}

theorem KeepsEnded.allFinished (h : KeepsEnded bookingId db.slots db'.slots)
    (hfinished : AllFinished db bookingId) : AllFinished db' bookingId := by
  intro s' hs' hb
  obtain ⟨s, hs, _, hbooking, hkept, _⟩ := h s' hs'
  have hterminal := hfinished s hs (hbooking.trans hb)
  rw [hkept (hbooking.trans hb) hterminal]
  exact hterminal

/-- A step that leaves the status of the booking keeps the mirror when it keeps the finished and the
checked-in slots. -/
theorem MirrorsSlots.of_slots (h : MirrorsSlots db bookingId)
    (hstatus : db'.status? bookingId = db.status? bookingId)
    (hslots : KeepsEnded bookingId db.slots db'.slots)
    (hchecked : ∀ s ∈ db.slots.rows, s.bookingId = bookingId → s.status = .checkedIn →
      ∃ s' ∈ db'.slots.rows, s'.bookingId = bookingId ∧ s'.status = .checkedIn) :
    MirrorsSlots db' bookingId := by
  constructor
  · intro hended
    rw [hstatus] at hended
    exact hslots.allFinished (h.ended hended)
  · intro hmirrored
    rw [hstatus] at hmirrored
    obtain ⟨s, hs, hb, hchecked'⟩ := h.checkedIn hmirrored
    exact hchecked s hs hb hchecked'

theorem checkedIn_of_update {p : SlotRow → Bool} {s : SlotRow} (hs : s ∈ slots.rows)
    (hb : s.bookingId = bookingId) (hchecked : s.status = .checkedIn) (hp : p s = false) :
    ∃ s' ∈ (slots.update p f).rows, s'.bookingId = bookingId ∧ s'.status = .checkedIn :=
  ⟨s, Table.mem_update.mpr ⟨s, hs, Table.updated_of_false hp⟩, hb, hchecked⟩

theorem status?_mirrorStatus (bookingId : Nat) (db : BookingDb) (b : Nat) (status : BookingStatus) :
    (mirrorStatus db b status).status? bookingId =
      if bookingId = b then (db.status? bookingId).map fun _ => status else db.status? bookingId := by
  simp only [BookingDb.status?, mirrorStatus, Table.get?_update]
  rcases Option.eq_none_or_eq_some (db.bookings.get? bookingId) with hget | ⟨row, hget⟩
  · simp [hget]
  · have hid : row.id = bookingId := (Table.get?_eq_some.mp hget).2
    by_cases hb : bookingId = b
    · have hrow : (row.id == b) = true := by simp [hid, hb]
      simp only [hget, if_pos hb, Option.map_some, Table.updated, hrow, if_true]
    · have hrow : (row.id == b) = false := by simp [hid, hb]
      simp only [hget, if_neg hb, Option.map_some, Table.updated, hrow, Bool.false_eq_true, if_false]

/-! ## One step -/

theorem serviceStep_keeps {call : ServiceCall} (now : Int)
    (hkeeps : ServiceKeeps bookingId db call) :
    KeepsEnded bookingId db.slots (serviceStep db now call).1.slots ∧
      (MirrorsSlots db bookingId → MirrorsSlots (serviceStep db now call).1 bookingId) := by
  cases call with
  | idle => exact ⟨.refl _, id⟩
  | scan => exact ⟨.refl _, id⟩
  | checkIn b =>
    simp only [serviceStep]
    cases checkInRead db b now with
    | error e => exact ⟨.refl _, id⟩
    | ok slot => exact ⟨.refl _, id⟩
  | checkInSlot b slotId checkedInAt =>
    simp only [serviceStep]
    cases hwrite : checkInWrite db slotId checkedInAt with
    | error e => exact ⟨.refl _, id⟩
    | ok db' =>
      simp only [checkInWrite] at hwrite
      split at hwrite
      · cases hwrite
      rename_i hfree
      simp only [Bool.or_eq_true, not_or, Bool.not_eq_true] at hfree
      obtain rfl := Except.ok.inj hwrite
      have hslots : KeepsEnded bookingId db.slots
          (db.slots.update (fun s => s.id == slotId) (checkInSlot checkedInAt)) := by
        refine .of_update (fun _ => rfl) ?_ ?_
        · intro s hs hid hb
          exact hkeeps hfree.1 s hs (by simpa using hid) hb
        · intro s _ _ _ hchecked
          cases hchecked
      refine ⟨hslots, fun h => h.of_slots rfl hslots ?_⟩
      intro s hs hb hchecked
      refine ⟨_, Table.mem_update.mpr ⟨s, hs, rfl⟩, ?_⟩
      unfold Table.updated
      split
      · exact ⟨hb, rfl⟩
      · exact ⟨hb, hchecked⟩
  | checkInBooking b =>
    refine ⟨.refl _, fun h => ?_⟩
    have hstatus := status?_mirrorStatus bookingId db b .checkedIn
    by_cases hb : bookingId = b
    · rw [if_pos hb] at hstatus
      refine ⟨?_, fun _ => hkeeps hb.symm⟩
      intro hended
      simp [serviceStep, hstatus] at hended
    · rw [if_neg hb] at hstatus
      exact h.of_slots hstatus (.refl _) fun s hs hb hchecked => ⟨s, hs, hb, hchecked⟩
  | release due =>
    cases due with
    | nil => exact ⟨.refl _, id⟩
    | cons slot due =>
      simp only [serviceStep]
      split
      · have hslots : KeepsEnded bookingId db.slots
            (db.slots.update (releasable slot.id) (releaseSlot now)) := by
          refine .of_update (fun _ => rfl) ?_ ?_
          · intro s _ hreleasable _
            simp only [releasable, Bool.and_eq_true, beq_iff_eq] at hreleasable
            rw [hreleasable.1.2]
            rfl
          · intro s _ hreleasable hchecked
            simp [releasable, hchecked] at hreleasable
        refine ⟨hslots, fun h => h.of_slots rfl hslots ?_⟩
        intro s hs hb hchecked
        exact checkedIn_of_update hs hb hchecked (by simp [releasable, hchecked])
      · exact ⟨.refl _, id⟩
  | releaseBooking b due =>
    refine ⟨.refl _, fun h => ?_⟩
    have hstatus := status?_mirrorStatus bookingId db b .released
    by_cases hb : bookingId = b
    · rw [if_pos hb] at hstatus
      refine ⟨fun _ => hkeeps hb.symm, ?_⟩
      intro hmirrored
      simp [serviceStep, hstatus] at hmirrored
    · rw [if_neg hb] at hstatus
      exact h.of_slots hstatus (.refl _) fun s hs hb hchecked => ⟨s, hs, hb, hchecked⟩

theorem CancelsScope.keeps {call : CancelCall} {ids : List Nat} (h : CancelsScope call ids db db') :
    KeepsEnded bookingId db.slots db'.slots ∧
      (MirrorsSlots db bookingId → MirrorsSlots db' bookingId) := by
  have hslots : KeepsEnded bookingId db.slots db'.slots := by
    rw [h.slots]
    refine .of_update (fun _ => rfl) ?_ ?_
    · intro s _ hopen _
      obtain ⟨b, _, hopen⟩ := List.any_eq_true.mp hopen
      simp only [openSlot, Bool.and_eq_true, Bool.not_eq_true'] at hopen
      exact hopen.2
    · intro s _ _ _ hchecked
      cases hchecked
  refine ⟨hslots, fun hmirrors => ?_⟩
  have hstatus : db'.status? bookingId = if bookingId ∈ ids then
      (db.status? bookingId).map fun _ => .cancelled else db.status? bookingId := by
    simp only [BookingDb.status?, h.bookings, Table.get?_update]
    rcases Option.eq_none_or_eq_some (db.bookings.get? bookingId) with hget | ⟨row, hget⟩
    · simp [hget]
    · have hid : row.id = bookingId := (Table.get?_eq_some.mp hget).2
      have hrow : (ids.any fun b => row.id == b) = decide (bookingId ∈ ids) := by
        rw [hid, Bool.eq_iff_iff]
        simp
      by_cases hb : bookingId ∈ ids
      · simp only [hget, Option.map_some, Table.updated, hrow, hb, decide_true, if_true]
      · simp only [hget, Option.map_some, Table.updated, hrow, hb, decide_false,
          Bool.false_eq_true, if_false]
  by_cases hb : bookingId ∈ ids
  · rw [if_pos hb] at hstatus
    constructor
    · intro _ s' hs' hbooking
      rw [h.slots] at hs'
      obtain ⟨s, hs, ⟨_, rfl⟩ | ⟨hclosed, rfl⟩⟩ := Table.mem_update_iff.mp hs'
      · rfl
      · have hnot : s'.status.terminal ≠ false := fun hlive => hclosed
          (List.any_eq_true.mpr ⟨bookingId, hb, by simp [openSlot, hbooking, hlive]⟩)
        simpa using hnot
    · intro hchecked
      rw [hstatus] at hchecked
      cases hget : db.status? bookingId with
      | none => simp [hget] at hchecked
      | some status => simp [hget] at hchecked
  · rw [if_neg hb] at hstatus
    refine hmirrors.of_slots hstatus hslots ?_
    intro s hs hbooking hchecked
    rw [h.slots]
    refine checkedIn_of_update hs hbooking hchecked (Bool.eq_false_iff.mpr fun hopen => ?_)
    obtain ⟨b, hmem, hopen⟩ := List.any_eq_true.mp hopen
    simp only [openSlot, Bool.and_eq_true, beq_iff_eq] at hopen
    exact hb (by rw [← hbooking, hopen.1]; exact hmem)

theorem grantOne_keeps {call : BookingGrantCall} (hkeeps : RejectionKeeps bookingId db call) :
    KeepsEnded bookingId db.slots (grantOne ruleInTenant db call).slots ∧
      (MirrorsSlots db bookingId → MirrorsSlots (grantOne ruleInTenant db call) bookingId) := by
  cases grantOne_step ruleInTenant db call with
  | unchanged hsame =>
    rw [hsame]
    exact ⟨.refl _, id⟩
  | answered _ _ hsame =>
    rw [hsame]
    exact ⟨.refl _, fun h => ⟨h.ended, h.checkedIn⟩⟩
  | @resolved decision a hanswers _ _ hbookings hslots _ _ _ =>
    have hkept : KeepsEnded bookingId db.slots (grantOne ruleInTenant db call).slots := by
      rw [hslots]
      refine .of_update (fun _ => rfl) ?_ ?_
      · intro s _ hwaits _
        simp only [waitingSlot, Bool.and_eq_true, beq_iff_eq] at hwaits
        rw [hwaits.2]
        rfl
      · intro s _ hwaits hchecked
        simp [waitingSlot, hchecked] at hwaits
    refine ⟨hkept, fun h => ?_⟩
    have hstatus := status?_transition db a.targetEntityId bookingId (resolvedStatus decision)
    rw [show (db.transition a.targetEntityId (resolvedStatus decision)).status? bookingId =
      (grantOne ruleInTenant db call).status? bookingId by
        rw [BookingDb.status?, BookingDb.status?, hbookings]] at hstatus
    have hchecked : ∀ s ∈ db.slots.rows, s.bookingId = bookingId → s.status = .checkedIn →
        ∃ s' ∈ (grantOne ruleInTenant db call).slots.rows, s'.bookingId = bookingId ∧
          s'.status = .checkedIn := by
      intro s hs hbooking hchecked
      rw [hslots]
      exact checkedIn_of_update hs hbooking hchecked (by simp [waitingSlot, hchecked])
    by_cases hmoves : bookingId = a.targetEntityId ∧ db.status? bookingId = some .pendingApproval
    · rw [if_pos hmoves] at hstatus
      obtain ⟨hb, hwaits⟩ := hmoves
      cases decision with
      | approved =>
        rw [show resolvedStatus .approved = .confirmed from rfl] at hstatus
        exact ⟨fun hended => by simp [hstatus] at hended, fun hmirrored => by
          simp [hstatus] at hmirrored⟩
      | rejected =>
        rw [show resolvedStatus .rejected = .cancelled from rfl] at hstatus
        refine ⟨fun _ => ?_, fun hmirrored => by simp [hstatus] at hmirrored⟩
        intro s' hs' hbooking
        rw [hslots] at hs'
        obtain ⟨s, hs, ⟨_, rfl⟩ | ⟨hkept, rfl⟩⟩ := Table.mem_update_iff.mp hs'
        · rfl
        · have hnot : s'.status.terminal ≠ false := by
            intro hlive
            have hpending := hkeeps a hanswers hb.symm hwaits s' hs hbooking hlive
            exact hkept (by simp [waitingSlot, hpending, hbooking, hb])
          simpa using hnot
    · rw [if_neg hmoves] at hstatus
      exact h.of_slots hstatus hkept hchecked

theorem lifecycleStep_keeps {action : LifecycleAction}
    (hkeeps : KeepsLifecycle bookingId w action) :
    KeepsEnded bookingId w.store.db.slots (lifecycleStep ruleInTenant w action).store.db.slots ∧
      (MirrorsSlots w.store.db bookingId →
        MirrorsSlots (lifecycleStep ruleInTenant w action).store.db bookingId) := by
  cases action with
  | startCheckIn i b => exact ⟨.refl _, id⟩
  | startScan i => exact ⟨.refl _, id⟩
  | stop i => exact ⟨.refl _, id⟩
  | advance i now => exact serviceStep_keeps now hkeeps
  | grant call => exact grantOne_keeps hkeeps
  | cancel call =>
    simp only [lifecycleStep, commandOne]
    cases hcancel : cancelBookingWithCascade w.store call with
    | error e => exact ⟨.refl _, id⟩
    | ok out =>
      obtain ⟨store', result⟩ := out
      rcases cancelBooking_scope hcancel with ⟨_, hscope⟩ | ⟨_, hsame⟩
      · exact hscope.keeps
      · rw [hsame]
        exact ⟨.refl _, id⟩

/-! ## Runs -/

theorem run_keepsEnded {actions : List LifecycleAction}
    (hkeeps : Guarded (lifecycleStep ruleInTenant) (KeepsLifecycle bookingId) w actions)
    {s s' : SlotRow} (hs : s ∈ w.store.db.slots.rows) (hb : s.bookingId = bookingId)
    (hterminal : s.status.terminal = true)
    (hs' : s' ∈ (run (lifecycleStep ruleInTenant) w actions).store.db.slots.rows)
    (hid : s'.id = s.id) : s'.status = s.status := by
  have hinv := hkeeps.invariant (I := fun w' => ∀ t ∈ w'.store.db.slots.rows, t.id = s.id →
    t.bookingId = bookingId ∧ t.status = s.status) ?_ ?_
  · exact (hinv s' hs' hid).2
  · intro w' action hinv hok t' ht' htid
    obtain ⟨t, ht, htid', hbooking, hkept, _⟩ := (lifecycleStep_keeps hok).1 t' ht'
    obtain ⟨htb, hstatus⟩ := hinv t ht (htid'.trans htid)
    refine ⟨hbooking.symm.trans htb, ?_⟩
    rw [hkept htb (by rw [hstatus]; exact hterminal), hstatus]
  · intro t ht htid
    obtain rfl := w.store.db.slots.eq_of_key_eq ht hs htid
    exact ⟨hb, rfl⟩

/-- The laws for every run that meets the condition. -/
theorem lifecycle_of_guarded {ruleInTenant : Nat → Bool} {w : LifecycleWorld}
    {actions : List LifecycleAction} (hstart : MirrorsSlots w.store.db bookingId)
    (hkeeps : Guarded (lifecycleStep ruleInTenant) (KeepsLifecycle bookingId) w actions) :
    Lifecycle ruleInTenant w bookingId actions := by
  refine ⟨?_, ?_, ?_⟩
  · intro pre mid post hsplit s hs hb hended s' hs' hid
    rw [hsplit] at hkeeps
    have hmid := (guarded_append.mp hkeeps.take).2
    rw [run_append] at hs'
    have hterminal : s.status.terminal = true := by
      rcases hended with hended | hended
      · rw [hended]
        rfl
      · rw [hended]
        rfl
    rw [run_keepsEnded hmid hs hb hterminal hs' hid]
    rcases hended with hended | hended
    · rw [hended]
      exact ⟨nofun, nofun⟩
    · rw [hended]
      exact ⟨nofun, nofun⟩
  · intro pre action post hsplit s hs _ hchecked s' hs' hid
    have hok := guarded_iff.mp hkeeps pre action post hsplit
    rw [run_append] at hs'
    obtain ⟨t, ht, htid, _, _, hreleased⟩ := (lifecycleStep_keeps hok).1 s' hs'
    obtain rfl := Table.eq_of_key_eq _ ht hs (htid.trans hid)
    exact hreleased hchecked
  · intro pre post hsplit
    rw [hsplit] at hkeeps
    refine hkeeps.take.invariant (I := fun w => MirrorsSlots w.store.db bookingId) ?_ hstart
    intro w action hmirrors hok
    exact (lifecycleStep_keeps hok).2 hmirrors

end

/-! ## A cancellation during a check-in -/

def confirmedWorld : LifecycleWorld where
  store := { db := confirmedBooking }
  calls := fun _ => .idle

theorem mirrorsSlots_confirmed : MirrorsSlots confirmedBooking 1 := by
  constructor
  · intro hended
    exact absurd hended (by decide)
  · intro hchecked
    exact absurd hchecked (by decide)

def cancelConfirmed : CancelCall where
  bookingId := 1
  idempotencyKey := "cancel-1"
  now := 1000
  env := openEnv

def cancelBeforeCheckIn : List LifecycleAction :=
  [.startCheckIn 0 1, .advance 0 1000, .cancel cancelConfirmed]

/-- The cancelled slot is checked in. -/
theorem cancelledSlot_checkedIn :
    ¬∀ (ruleInTenant : Nat → Bool) (w : LifecycleWorld) (bookingId : Nat)
      (actions : List LifecycleAction), MirrorsSlots w.store.db bookingId →
        (∀ i, w.calls i = .idle) → Lifecycle ruleInTenant w bookingId actions := by
  intro hlaw
  have hlife := hlaw (fun _ => true) confirmedWorld 1 (cancelBeforeCheckIn ++ [.advance 0 1000])
    mirrorsSlots_confirmed fun _ => rfl
  have hstays := hlife.staysEnded cancelBeforeCheckIn [.advance 0 1000] [] rfl
  revert hstays
  decide +kernel

/-- Two meetings that started at the same time and that nobody has checked in to. -/
def guestWorld : LifecycleWorld where
  store :=
    { db :=
        { bookings := ⟨[
            { id := 1, status := .confirmed, locationId := 100, startAt := 0, endAt := 3600000 },
            { id := 2, status := .confirmed, locationId := 101, startAt := 0, endAt := 3600000 }],
            by decide⟩
          slots := ⟨[
            { id := 1, bookingId := 1, spaceId := 100, startAt := 0, endAt := 3600000,
              status := .confirmed, checkInRequired := true },
            { id := 2, bookingId := 2, spaceId := 101, startAt := 0, endAt := 3600000,
              status := .confirmed, checkInRequired := true }], by decide⟩
          approvals := Table.empty } }
  calls := fun _ => .idle

/-- A guest checks in at the last minute. The scan that has found both slots due before that releases
the other one. -/
theorem lifecycle_checkIn :
    Lifecycle (fun _ => true) guestWorld 1
      [.startCheckIn 0 1, .advance 0 1000000, .startScan 1, .advance 1 1000000,
        .advance 0 1000000, .advance 1 1000000, .advance 0 1000000, .advance 1 1000000,
        .advance 1 1000000, .advance 1 1000000] := by
  have hstart : MirrorsSlots guestWorld.store.db 1 := by
    constructor
    · intro hended
      exact absurd hended (by decide)
    · intro hchecked
      exact absurd hchecked (by decide)
  refine lifecycle_of_guarded hstart ⟨trivial, trivial, trivial, trivial, ?_, trivial, ?_, trivial,
    ?_, trivial, trivial⟩
  · show ServiceKeeps 1 guestWorld.store.db (.checkInSlot 1 1 1000000)
    intro _ s hs hid _
    have hlive : ∀ s ∈ guestWorld.store.db.slots.rows, s.status.terminal = false := by decide
    exact hlive s hs
  · intro _
    refine ⟨_, List.mem_cons_self, rfl, rfl⟩
  · intro hother
    exact absurd hother (by decide)

end Prequest.Booking
