import Prequest.Booking.CheckIn

/-!
# Restoring a cancelled booking

A cancellation leaves the slots a grace within which the booking can be restored.
`restore` looks at the primary slot: it must be cancelled, within its grace, and
its room free. Then it confirms all slots of the booking, whatever they were
before, and the booking.

* `restoresExactly_iff`: it holds exactly when the cancelled bookings were confirmed throughout.
* `restored_unapproved`: a booking that waits for approval, cancelled and restored.
-/

namespace Prequest.Booking

open Prequest.Lib Prequest.Approval Prequest.Command

/-! ## The service -/

structure RestoreCall where
  bookingId : Nat
  now : Int
  deriving DecidableEq, Repr

inductive RestoreError where
  | bookingNotFound
  | bookingNotCancelled
  | cancellationGraceExpired
  | bookingSlotTaken
  | restoreFailed
  deriving DecidableEq, Repr

def restoreSlot : Table.Assignment SlotRow :=
  ⟨fun s => { s with status := .confirmed, cancellationGraceUntil := none }, fun _ => rfl⟩

def restoredSlots (db : BookingDb) (bookingId : Nat) : Table SlotRow :=
  db.slots.update (fun s => s.bookingId == bookingId) restoreSlot

/-- `ReservationService.restore`. The tables are those it leaves, also when it fails. -/
def restore (db : BookingDb) (call : RestoreCall) : BookingDb × Except RestoreError Unit :=
  match primarySlot db call.bookingId with
  | none => (db, .error .bookingNotFound)
  | some r =>
      if r.status ≠ .cancelled then (db, .error .bookingNotCancelled)
      else if !r.cancellationGraceUntil.any fun graceUntil => decide (call.now ≤ graceUntil) then
        (db, .error .cancellationGraceExpired)
      else if preCheck db r.spaceId r.timeRange.1 r.timeRange.2 [r.id] ≠ [] then
        (db, .error .bookingSlotTaken)
      else if hasOverlap (restoredSlots db call.bookingId) then (db, .error .restoreFailed)
      else
        (mirrorStatus { db with slots := restoredSlots db call.bookingId } call.bookingId .confirmed,
          .ok ())

/-! ## Sequences -/

inductive RestoreAction where
  | cancel (call : CancelCall)
  | grant (call : BookingGrantCall)
  | autoRelease (now : Int)
  | restore (call : RestoreCall)

def restoreStep (ruleInTenant : Nat → Bool) (store : BookingStore) : RestoreAction → BookingStore
  | .cancel call => commandOne ruleInTenant store (.cancel call)
  | .grant call => commandOne ruleInTenant store (.grant call)
  | .autoRelease now => { store with db := autoReleaseScan store.db now }
  | .restore call => { store with db := (restore store.db call).1 }

def TakesOut (store : BookingStore) (bookingId : Nat) (call : CancelCall) : Prop :=
  RunsCascade store call ∧ bookingId ∈ scopeIds store.db call ∧
    ∃ out, cancelBookingWithCascade store call = .ok out

section

variable (ruleInTenant : Nat → Bool) (store : BookingStore) (bookingId : Nat)

/-- A restore of the booking succeeds after `pre`, a cancellation of the booking and `mid`, in which
nobody cancels it again. -/
structure RestoresLatest (pre : List RestoreAction) (cancel : CancelCall) (mid : List RestoreAction)
    (call : RestoreCall) : Prop where
  takesOut : TakesOut (run (restoreStep ruleInTenant) store pre) bookingId cancel
  latest : ∀ pre' cancel' post', mid = pre' ++ .cancel cancel' :: post' →
    ¬TakesOut (run (restoreStep ruleInTenant) store (pre ++ .cancel cancel :: pre')) bookingId cancel'
  booking : call.bookingId = bookingId
  succeeds : (restore (run (restoreStep ruleInTenant) store (pre ++ .cancel cancel :: mid)).db
    call).2 = .ok ()

/-- The booking has the status it had, its slots that were live have theirs, and no other slot is
live. -/
structure RestoresTo (before after : BookingDb) : Prop where
  booking : after.status? bookingId = before.status? bookingId
  slots : ∀ s ∈ before.slots.rows, s.bookingId = bookingId → ∀ s' ∈ after.slots.rows, s'.id = s.id →
    (s.status.terminal = false → s'.status = s.status) ∧
      (s.status.terminal = true → s'.status.terminal = true)

/-- The law for a sequence of actions. -/
structure RestoresExactly (actions : List RestoreAction) : Prop where
  restored : ∀ pre cancel mid call post,
    actions = pre ++ .cancel cancel :: (mid ++ .restore call :: post) →
      RestoresLatest ruleInTenant store bookingId pre cancel mid call →
        RestoresTo bookingId (run (restoreStep ruleInTenant) store pre).db
          (restore (run (restoreStep ruleInTenant) store (pre ++ .cancel cancel :: mid)).db call).1
  failedKeeps : ∀ pre call post, actions = pre ++ .restore call :: post →
    (restore (run (restoreStep ruleInTenant) store pre).db call).2 ≠ .ok () →
      (run (restoreStep ruleInTenant) store (pre ++ [.restore call])).db =
        (run (restoreStep ruleInTenant) store pre).db

end

def AllConfirmed (db : BookingDb) (bookingId : Nat) : Prop :=
  db.status? bookingId = some .confirmed ∧
    ∀ s ∈ db.slots.rows, s.bookingId = bookingId → s.status = .confirmed

/-! ## What a step leaves -/

def SameRows (db db' : BookingDb) : Prop :=
  (db'.slots.rows.map fun s => (s.id, s.bookingId)) = db.slots.rows.map (fun s => (s.id, s.bookingId)) ∧
    db'.bookings.rows.map BookingRow.id = db.bookings.rows.map BookingRow.id

theorem SameRows.refl (db : BookingDb) : SameRows db db := ⟨rfl, rfl⟩

theorem SameRows.trans {a b c : BookingDb} (h : SameRows a b) (h' : SameRows b c) : SameRows a c :=
  ⟨h'.1.trans h.1, h'.2.trans h.2⟩

theorem SameRows.of_update {db db' : BookingDb} {p : SlotRow → Bool} {f : Table.Assignment SlotRow}
    {q : BookingRow → Bool} {g : Table.Assignment BookingRow}
    (hslots : db'.slots = db.slots.update p f) (hbooking : ∀ s, (f.apply s).bookingId = s.bookingId)
    (hbookings : db'.bookings = db.bookings.update q g) : SameRows db db' := by
  constructor
  · rw [hslots, show (db.slots.update p f).rows = db.slots.rows.map (Table.updated p f) from rfl,
      List.map_map]
    refine List.map_congr_left fun s _ => ?_
    have hid : (Table.updated p f s).id = s.id := Table.key_updated p f s
    have hb : (Table.updated p f s).bookingId = s.bookingId := by
      unfold Table.updated
      split
      · exact hbooking s
      · rfl
    simp only [Function.comp_apply, hid, hb]
  · rw [hbookings, show (db.bookings.update q g).rows = db.bookings.rows.map (Table.updated q g)
      from rfl, List.map_map]
    exact List.map_congr_left fun b _ => Table.key_updated q g b

theorem SameRows.of_eq {db db' : BookingDb} (h : db' = db) : SameRows db db' := h ▸ .refl db

theorem releaseAll_sameRows (now : Int) (due : List DueSlot) (db : BookingDb) :
    SameRows db (releaseAll now db due) := by
  induction due generalizing db with
  | nil => exact .refl db
  | cons slot due ih =>
    unfold releaseAll
    split
    · exact .trans (.of_update rfl (fun _ => rfl) rfl) (ih _)
    · exact ih db

theorem restore_cases (db : BookingDb) (call : RestoreCall) :
    ((restore db call).2 ≠ .ok () ∧ (restore db call).1 = db) ∨
      ((restore db call).2 = .ok () ∧
        (restore db call).1 = mirrorStatus { db with slots := restoredSlots db call.bookingId }
          call.bookingId .confirmed) := by
  unfold restore
  split
  · exact .inl ⟨nofun, rfl⟩
  split_ifs
  · exact .inl ⟨nofun, rfl⟩
  · exact .inl ⟨nofun, rfl⟩
  · exact .inl ⟨nofun, rfl⟩
  · exact .inl ⟨nofun, rfl⟩
  · exact .inr ⟨rfl, rfl⟩

theorem restore_sameRows (db : BookingDb) (call : RestoreCall) :
    SameRows db (restore db call).1 := by
  rcases restore_cases db call with ⟨_, hsame⟩ | ⟨_, hrestored⟩
  · exact .of_eq hsame
  · rw [hrestored]
    exact .of_update rfl (fun _ => rfl) rfl

theorem restoreStep_sameRows (ruleInTenant : Nat → Bool) (store : BookingStore)
    (action : RestoreAction) : SameRows store.db (restoreStep ruleInTenant store action).db := by
  cases action with
  | cancel call =>
    simp only [restoreStep, commandOne]
    cases hcancel : cancelBookingWithCascade store call with
    | error e => exact .refl _
    | ok out =>
      obtain ⟨store', result⟩ := out
      rcases cancelBooking_scope hcancel with ⟨_, hscope⟩ | ⟨_, hsame⟩
      · exact .of_update hscope.slots (fun _ => rfl) hscope.bookings
      · exact .of_eq hsame
  | grant call =>
    simp only [restoreStep, commandOne]
    cases grantOne_step ruleInTenant store.db call with
    | unchanged hsame => exact .of_eq hsame
    | answered _ _ hsame =>
      rw [hsame]
      exact ⟨rfl, rfl⟩
    | resolved _ _ _ hbookings hslots => exact .of_update hslots (fun _ => rfl) hbookings
  | autoRelease now => exact releaseAll_sameRows now _ _
  | restore call => exact restore_sameRows _ _

theorem run_sameRows (ruleInTenant : Nat → Bool) (store : BookingStore)
    (actions : List RestoreAction) :
    SameRows store.db (run (restoreStep ruleInTenant) store actions).db := by
  refine run_rel (R := fun store store' => SameRows store.db store'.db) (fun _ => .refl _) ?_
    (restoreStep_sameRows ruleInTenant) store actions
  intro _ _ _ h h'
  exact SameRows.trans h h'

section

variable {db db' : BookingDb} {bookingId : Nat}

theorem SameRows.exists_slot (h : SameRows db db') {s : SlotRow} (hs : s ∈ db.slots.rows) :
    ∃ s' ∈ db'.slots.rows, s'.id = s.id ∧ s'.bookingId = s.bookingId := by
  have hmem : (s.id, s.bookingId) ∈ db'.slots.rows.map fun s => (s.id, s.bookingId) := by
    rw [h.1]
    exact List.mem_map.mpr ⟨s, hs, rfl⟩
  obtain ⟨s', hs', heq⟩ := List.mem_map.mp hmem
  exact ⟨s', hs', (Prod.mk.inj heq).1, (Prod.mk.inj heq).2⟩

theorem SameRows.bookingId_eq (h : SameRows db db') {s s' : SlotRow} (hs : s ∈ db.slots.rows)
    (hs' : s' ∈ db'.slots.rows) (hid : s'.id = s.id) : s'.bookingId = s.bookingId := by
  obtain ⟨t, ht, htid, hbooking⟩ := h.exists_slot hs
  obtain rfl := db'.slots.eq_of_key_eq ht hs' (htid.trans hid.symm)
  exact hbooking

theorem SameRows.status?_isSome (h : SameRows db db') (bookingId : Nat) :
    (db'.status? bookingId).isSome = (db.status? bookingId).isSome := by
  have hget : ∀ db : BookingDb, (db.status? bookingId).isSome = true ↔
      bookingId ∈ db.bookings.rows.map BookingRow.id := by
    intro db
    rw [BookingDb.status?, Option.isSome_map, Option.isSome_iff_ne_none, ne_eq, Table.get?_eq_none]
    simp only [List.mem_map, not_forall, Classical.not_not, exists_prop]
    rfl
  rw [Bool.eq_iff_iff, hget, hget, h.2]

theorem mem_cancelSet {pivot : BookingRow} {scope : CancelScope} {ids : List Nat}
    (h : cancelSet db pivot scope = .ok ids) (hmem : bookingId ∈ ids) :
    bookingId = pivot.id ∨
      bookingId ∈ (db.bookings.rows.filter (inCancelScope pivot scope)).map BookingRow.id := by
  unfold cancelSet at h
  split at h
  · cases h
    exact .inl (List.mem_singleton.mp hmem)
  split at h
  · cases h
  obtain rfl := Except.ok.inj h
  split at hmem
  · exact .inr ((List.perm_insertionSort _ _).mem_iff.mp hmem)
  · rcases List.mem_append.mp hmem with hmem | hmem
    · exact .inr ((List.perm_insertionSort _ _).mem_iff.mp hmem)
    · exact .inl (List.mem_singleton.mp hmem)

theorem status?_of_takesOut {store : BookingStore} {call : CancelCall}
    (h : TakesOut store bookingId call) : (store.db.status? bookingId).isSome = true := by
  obtain ⟨⟨scope, pivot, hscope, _, hpivot, _⟩, hmem, _⟩ := h
  have hid : pivot.id = call.bookingId := (Table.get?_eq_some.mp hpivot).2
  have hpivotSome : (store.db.status? pivot.id).isSome = true := by
    rw [hid, BookingDb.status?, hpivot]
    rfl
  have hrow : ∀ b ∈ store.db.bookings.rows, (store.db.status? b.id).isSome = true := by
    intro b hb
    rw [BookingDb.status?, show store.db.bookings.get? b.id = some b from Table.get?_of_mem hb]
    rfl
  have hids : bookingId = pivot.id ∨
      bookingId ∈ (store.db.bookings.rows.filter (inCancelScope pivot scope)).map BookingRow.id := by
    unfold scopeIds at hmem
    rw [hpivot, hscope] at hmem
    cases hset : cancelSet store.db pivot scope with
    | error e =>
      simp only [hset] at hmem
      exact .inl (List.mem_singleton.mp hmem)
    | ok ids =>
      simp only [hset] at hmem
      exact mem_cancelSet hset hmem
  rcases hids with rfl | hmem
  · exact hpivotSome
  · obtain ⟨b, hb, rfl⟩ := List.mem_map.mp hmem
    exact hrow b (List.mem_filter.mp hb).1

/-! ## The law -/

theorem restoresTo_iff (h : SameRows db db') (hexists : (db.status? bookingId).isSome = true)
    {call : RestoreCall} (hb : call.bookingId = bookingId) (hok : (restore db' call).2 = .ok ()) :
    RestoresTo bookingId db (restore db' call).1 ↔ AllConfirmed db bookingId := by
  have hsame : SameRows db (restore db' call).1 := h.trans (restore_sameRows db' call)
  have hafter : (restore db' call).1 =
      mirrorStatus { db' with slots := restoredSlots db' bookingId } bookingId .confirmed := by
    rcases restore_cases db' call with ⟨hfails, _⟩ | ⟨_, hrestored⟩
    · exact absurd hok hfails
    · rw [hrestored, hb]
  have hstatus : (restore db' call).1.status? bookingId = some .confirmed := by
    have hmirror := status?_mirrorStatus bookingId
      { db' with slots := restoredSlots db' bookingId } bookingId .confirmed
    rw [if_pos rfl, ← hafter] at hmirror
    have hsome := hsame.status?_isSome bookingId
    rw [hexists] at hsome
    rw [hmirror] at hsome ⊢
    cases hmid : BookingDb.status? { db' with slots := restoredSlots db' bookingId } bookingId with
    | none => simp [hmid] at hsome
    | some status => rfl
  have hconfirmed : ∀ s' ∈ (restore db' call).1.slots.rows, s'.bookingId = bookingId →
      s'.status = .confirmed := by
    intro s' hs' hbooking
    rw [hafter] at hs'
    obtain ⟨s, _, ⟨_, rfl⟩ | ⟨hother, rfl⟩⟩ := Table.mem_update_iff.mp hs'
    · rfl
    · exact absurd (beq_iff_eq.mpr hbooking) hother
  constructor
  · intro hrestores
    refine ⟨hrestores.booking.symm.trans hstatus, ?_⟩
    intro s hs hbooking
    obtain ⟨s', hs', hid, hbooking'⟩ := hsame.exists_slot hs
    obtain ⟨hlive, hterminal⟩ := hrestores.slots s hs hbooking s' hs' hid
    have hstatus' := hconfirmed s' hs' (hbooking'.trans hbooking)
    cases hs : s.status.terminal with
    | false => exact (hlive hs).symm.trans hstatus'
    | true =>
      have hdead := hterminal hs
      rw [hstatus'] at hdead
      cases hdead
  · intro hall
    refine ⟨hstatus.trans hall.1.symm, ?_⟩
    intro s hs hbooking s' hs' hid
    have hstatus' := hconfirmed s' hs' ((hsame.bookingId_eq hs hs' hid).trans hbooking)
    rw [hstatus', hall.2 s hs hbooking]
    exact ⟨fun _ => rfl, nofun⟩

end

/-- A restore gives the booking back as it was before the latest cancellation exactly when the
booking and all its slots were confirmed then. -/
theorem restoresExactly_iff (ruleInTenant : Nat → Bool) (store : BookingStore) (bookingId : Nat)
    (actions : List RestoreAction) :
    RestoresExactly ruleInTenant store bookingId actions ↔
      ∀ pre cancel mid call post,
        actions = pre ++ .cancel cancel :: (mid ++ .restore call :: post) →
          RestoresLatest ruleInTenant store bookingId pre cancel mid call →
            AllConfirmed (run (restoreStep ruleInTenant) store pre).db bookingId := by
  have hexact : ∀ {pre cancel mid call},
      RestoresLatest ruleInTenant store bookingId pre cancel mid call →
        (RestoresTo bookingId (run (restoreStep ruleInTenant) store pre).db
            (restore (run (restoreStep ruleInTenant) store (pre ++ .cancel cancel :: mid)).db
              call).1 ↔
          AllConfirmed (run (restoreStep ruleInTenant) store pre).db bookingId) := by
    intro pre cancel mid call h
    have hsame := run_sameRows ruleInTenant (run (restoreStep ruleInTenant) store pre)
      (.cancel cancel :: mid)
    rw [← run_append] at hsame
    exact restoresTo_iff hsame (status?_of_takesOut h.takesOut) h.booking h.succeeds
  constructor
  · intro hlaw pre cancel mid call post hsplit h
    exact (hexact h).mp (hlaw.restored pre cancel mid call post hsplit h)
  · intro hall
    refine ⟨?_, ?_⟩
    · intro pre cancel mid call post hsplit h
      exact (hexact h).mpr (hall pre cancel mid call post hsplit h)
    · intro pre call post _ hfails
      rw [run_append]
      rcases restore_cases (run (restoreStep ruleInTenant) store pre).db call with
        ⟨_, hsame⟩ | ⟨hok, _⟩
      · exact hsame
      · exact absurd hok hfails

/-! ## A booking that waits for approval -/

def cancelWaiting : CancelCall where
  bookingId := 1
  idempotencyKey := "cancel-1"
  now := 1000
  env := openEnv

/-- A minute later it is restored. -/
def restoreWaiting : RestoreCall where
  bookingId := 1
  now := 61000

/-- Nobody has approved the booking, and it is confirmed. -/
theorem restored_unapproved :
    ¬RestoresExactly (fun _ => true) { db := waitingForOne } 1
      [.cancel cancelWaiting, .restore restoreWaiting] := by
  intro hlaw
  have hlatest : RestoresLatest (fun _ => true) { db := waitingForOne } 1 [] cancelWaiting []
      restoreWaiting := by
    refine ⟨⟨⟨.this, _, rfl, rfl, rfl, by decide⟩, by decide, _, rfl⟩, ?_, rfl, ?_⟩
    · intro pre' cancel' post' hsplit
      exact absurd hsplit (by simp)
    · rcases restore_cases (run (restoreStep fun _ => true) { db := waitingForOne }
        [.cancel cancelWaiting]).db restoreWaiting with ⟨_, hsame⟩ | ⟨hok, _⟩
      · have hmoved : (restore (run (restoreStep fun _ => true) { db := waitingForOne }
            [.cancel cancelWaiting]).db restoreWaiting).1.status? 1 = some .confirmed := by
          decide +kernel
        rw [hsame] at hmoved
        revert hmoved
        decide +kernel
      · exact hok
  have hrestored := (hlaw.restored [] cancelWaiting [] restoreWaiting [] rfl hlatest).booking
  revert hrestored
  decide +kernel

end Prequest.Booking
