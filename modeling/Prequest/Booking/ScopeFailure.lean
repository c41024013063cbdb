import Prequest.Booking.EditScope
import Prequest.Booking.IdempotencyGate

/-!
# Edits of a series that fail

The split of a series is committed before the occurrences are planned. When the
planner or `edit_booking_scope` then refuses the edit, the pivot and the bookings
after it stay on the new series, and the old one stays cut.

* `failedScope_unchanged_iff`: a failed edit changes nothing exactly when no split ran.
* `deniedRoom_splits`: a room that cannot be booked.
-/

namespace Prequest.Booking

open Prequest.Lib Prequest.Approval Prequest.Command Prequest.Recurrence

/-! ## The split -/

structure SplitRuns (store : BookingStore) (call : SplitCall) (pivot : BookingRow)
    (source : SeriesRow) : Prop where
  key : call.idempotencyKey ≠ ""
  actor : KnownActor call.env.userOf call.actorUserId
  unused : store.operations.get? call.idempotencyKey = none
  isPivot : store.db.bookings.get? call.bookingId = some pivot
  recurring : pivot.recurrenceSeriesId = some source.id
  hasSeries : store.series.get? source.id = some source
  fresh : store.series.get? call.newSeriesId = none

def splitBookings (bookings : Table BookingRow) (pivot : BookingRow) (sourceId newSeriesId : Nat) :
    Table BookingRow :=
  bookings.update (movesTo pivot sourceId)
    ⟨fun b => { b with recurrenceSeriesId := some newSeriesId }, fun _ => rfl⟩

structure SplitDone (store : BookingStore) (call : SplitCall) (pivot : BookingRow)
    (source : SeriesRow) (store' : BookingStore) (result : BookingResult) : Prop where
  runs : SplitRuns store call pivot source
  db : store'.db = { store.db with
    bookings := splitBookings store.db.bookings pivot source.id call.newSeriesId }
  series : ∃ series, store.series.insert? (splitSeriesRow call.newSeriesId pivot source) =
    some series ∧ store'.series = series.update (fun r => r.id == source.id)
      ⟨fun r => { r with seriesEndAt := some pivot.startAt }, fun _ => rfl⟩
  operations : store'.operations = finish (begin store.operations call.idempotencyKey
    (splitPayload call)) call.idempotencyKey result
  result : ∃ count, result = .split call.newSeriesId source.id count pivot.id

section

variable {store store' : BookingStore} {call : SplitCall} {result : BookingResult}
  {pivot : BookingRow} {source : SeriesRow}

theorem splitRecurrenceSeries_eq_gated (hkey : call.idempotencyKey ≠ "")
    (hactor : KnownActor call.env.userOf call.actorUserId) :
    splitRecurrenceSeries store call = splitRecurrenceSeries.gated store call := by
  unfold splitRecurrenceSeries
  rw [if_neg hkey]
  split
  · rename_i authUid hcaller
    have hknown : ¬(call.env.userOf authUid).isNone = true := by
      rw [Option.isNone_iff_eq_none, ← ne_eq, Option.ne_none_iff_isSome]
      exact hactor authUid hcaller
    rw [if_neg hknown]
  · rfl

theorem SplitRuns.done (h : SplitRuns store call pivot source) :
    ∃ store' result, splitRecurrenceSeries store call = .ok (store', result) ∧
      SplitDone store call pivot source store' result := by
  obtain ⟨series, hinsert, _⟩ := Table.insert?_of_fresh
    (t := store.series) (r := splitSeriesRow call.newSeriesId pivot source) h.fresh
  rw [splitRecurrenceSeries_eq_gated h.key h.actor]
  unfold splitRecurrenceSeries.gated
  simp only [gate_eq_proceed.mpr h.unused, splitFresh, h.isPivot, h.recurring, h.hasSeries,
    splitSeries, hinsert]
  exact ⟨_, _, rfl, h, rfl, ⟨series, hinsert, rfl⟩, rfl, _, rfl⟩

theorem split_cases (h : splitRecurrenceSeries store call = .ok (store', result)) :
    (store' = store ∧ store.operations.get? call.idempotencyKey =
        some ⟨call.idempotencyKey, splitPayload call, .success result⟩) ∨
      ∃ pivot source, SplitDone store call pivot source store' result := by
  obtain ⟨hkey, hactor, _⟩ := splitSeries_records h
  have hgated := h
  rw [splitRecurrenceSeries_eq_gated hkey hactor] at hgated
  unfold splitRecurrenceSeries.gated at hgated
  split at hgated
  · cases hgated
  · rename_i hgate
    cases hgated
    exact .inl ⟨rfl, gate_eq_cached.mp hgate⟩
  rename_i hgate
  split at hgated
  · cases hgated
  rename_i hfresh
  simp only [splitFresh] at hfresh
  split at hfresh
  · cases hfresh
  rename_i pivot hpivot
  split at hfresh
  · cases hfresh
  rename_i seriesId hseriesId
  split at hfresh
  · cases hfresh
  rename_i source hsource
  have hid : source.id = seriesId := (Table.get?_eq_some.mp hsource).2
  subst hid
  simp only [splitSeries] at hfresh
  split at hfresh
  · cases hfresh
  rename_i series hinsert
  have hruns : SplitRuns store call pivot source :=
    ⟨hkey, hactor, gate_eq_proceed.mp hgate, hpivot, hseriesId, hsource,
      (Table.insert?_eq_some hinsert).2⟩
  obtain ⟨store'', result', hcall, hdone⟩ := hruns.done
  rw [h] at hcall
  cases hcall
  exact .inr ⟨pivot, source, hdone⟩

theorem SplitDone.series_ne (h : SplitDone store call pivot source store' result) :
    store'.series ≠ store.series := by
  obtain ⟨series, hinsert, hseries⟩ := h.series
  intro heq
  have hlength : series.rows.length = store.series.rows.length + 1 := by
    rw [(Table.insert?_eq_some hinsert).1, List.length_append]
    rfl
  have hsame : store'.series.rows.length = series.rows.length := by
    rw [hseries]
    exact List.length_map _
  rw [heq] at hsame
  omega

end

/-! ## A failed edit -/

/-- The request splits its series before it is planned: it edits this and the following bookings,
sends no time, and its split is let through. -/
structure SplitsSeries (store : BookingStore) (r : ScopeRequest) : Prop where
  following : r.scope = .thisAndFollowing
  noTimes : r.timeShift = false
  hasSlot : primarySlot store.db r.bookingId ≠ none
  runs : ∃ pivot source, SplitRuns store r.splitCall pivot source

/-- The series, and the bookings with their slots, approvals and other rows, are as before. -/
def SameTables (store store' : BookingStore) : Prop :=
  store'.series = store.series ∧ store'.db = store.db

section

variable {store store' : BookingStore} {r : ScopeRequest} {e : ScopeRequestError}

theorem apply_of_error {seriesId : Nat} {startFrom : Option Int} {newSeriesId : Option Nat}
    {dryRun : Bool} (h : r.apply store seriesId startFrom newSeriesId dryRun = (store', .error e)) :
    store' = store := by
  unfold ScopeRequest.apply at h
  split at h
  · cases h
    rfl
  split at h
  · cases h
    rfl
  · cases h

/-- An edit that fails changes no table exactly when it did not split its series. -/
theorem failedScope_unchanged_iff (h : editScope store r false = (store', .error e)) :
    SameTables store store' ↔ ¬SplitsSeries store r := by
  have hsame : ∀ {s : BookingStore}, s = store → SameTables store s := by
    rintro s rfl
    exact ⟨rfl, rfl⟩
  unfold editScope at h
  split at h
  · rename_i htimes
    cases h
    refine iff_of_true (hsame rfl) ?_
    intro hsplits
    rw [hsplits.noTimes] at htimes
    cases htimes
  rename_i htimes
  split at h
  swap
  · rename_i hmissing
    cases h
    refine iff_of_true (hsame rfl) ?_
    intro hsplits
    obtain ⟨slot, hslot⟩ := Option.ne_none_iff_exists'.mp hsplits.hasSlot
    obtain ⟨pivot, _, hruns⟩ := hsplits.runs
    exact hmissing slot pivot hslot hruns.isPivot
  rename_i slot pivot hslot hpivot
  split at h
  · rename_i hnone
    cases h
    refine iff_of_true (hsame rfl) ?_
    intro hsplits
    obtain ⟨pivot', _, hruns⟩ := hsplits.runs
    have hpivot' : store.db.bookings.get? r.bookingId = some pivot' := hruns.isPivot
    rw [hpivot] at hpivot'
    cases hpivot'
    have hrecurring := hruns.recurring
    rw [hnone] at hrecurring
    cases hrecurring
  split at h
  · rename_i hscope
    refine iff_of_true (hsame (apply_of_error h)) ?_
    intro hsplits
    have hfollowing := hsplits.following
    rw [hscope] at hfollowing
    cases hfollowing
  · rename_i hdry
    cases hdry
  rename_i hscope _
  cases hsplit : splitRecurrenceSeries store r.splitCall with
  | error error =>
    simp only [hsplit] at h
    cases h
    refine iff_of_true (hsame rfl) ?_
    intro hsplits
    obtain ⟨_, _, hruns⟩ := hsplits.runs
    obtain ⟨_, _, hcall, _⟩ := hruns.done
    rw [hsplit] at hcall
    cases hcall
  | ok answer =>
    obtain ⟨split, result⟩ := answer
    have hstore : store' = split := by
      simp only [hsplit] at h
      split at h
      · rename_i heq
        cases heq
      · rename_i heq
        cases heq
        exact apply_of_error h
      · rename_i heq
        cases heq
        cases h
        rfl
    subst hstore
    rcases split_cases hsplit with ⟨rfl, hrecorded⟩ | ⟨source, row, hdone⟩
    · refine iff_of_true (hsame rfl) ?_
      intro hsplits
      obtain ⟨_, _, hruns⟩ := hsplits.runs
      rw [hruns.unused] at hrecorded
      cases hrecorded
    · refine iff_of_false ?_ ?_
      · intro hunchanged
        exact hdone.series_ne hunchanged.1
      · intro hnot
        refine hnot ⟨hscope, Bool.eq_false_iff.mpr htimes, ?_, source, row, hdone.runs⟩
        rw [hslot]
        exact Option.some_ne_none _

end

/-! ## A room that cannot be booked -/

def meetingOn (day : Nat) : BookingRow where
  id := day
  status := .confirmed
  locationId := 100
  startAt := day * 86400000
  endAt := day * 86400000 + 3600000
  recurrenceSeriesId := some 1

def meetingSlot (day : Nat) : SlotRow where
  id := day
  bookingId := day
  spaceId := 100
  startAt := day * 86400000
  endAt := day * 86400000 + 3600000
  status := .confirmed

/-- A meeting on three days. -/
def dailyMeeting : BookingStore where
  db :=
    { bookings := ⟨[meetingOn 1, meetingOn 2, meetingOn 3], by decide⟩
      slots := ⟨[meetingSlot 1, meetingSlot 2, meetingSlot 3], by decide⟩
      approvals := Table.empty }
  series := ⟨[
    { id := 1
      recurrenceRule := { frequency := .daily }
      seriesStartAt := 86400000
      materializedThrough := 4 * 86400000 }], by decide⟩

def closedRoom : EditPlanEnv where
  loadSpace := fun _ => some {}
  resolve := fun _ spaceId _ _ _ _ =>
    { final := if spaceId = 200 then .deny else .allow, approvalConfig := none }
  computeCost := fun _ _ _ => none
  policySnapshot := fun _ _ _ => ""

/-- The meeting is moved to another room from its second day on, or on all days. -/
def meetIn (planEnv : EditPlanEnv) (scope : EditScope) (spaceId : Nat) : ScopeRequest where
  bookingId := 2
  scope := scope
  patch := { spaceId := some spaceId }
  clientRequestId := "meet"
  resolutionAt := 0
  now := 0
  newSeriesId := 2
  newChainId := id
  newApprovalId := fun bookingId place => 10 * bookingId + place
  planEnv := planEnv
  env :=
    { userOf := some
      entityInTenant := fun _ _ => true
      rules := [] }

/-- The room is refused, and the meeting has become two series. -/
theorem deniedRoom_splits :
    ¬∀ (store store' : BookingStore) (r : ScopeRequest) (e : ScopeRequestError),
      editScope store r false = (store', .error e) → SameTables store store' := by
  intro hlaw
  have hdenied : (editScope dailyMeeting (meetIn closedRoom .thisAndFollowing 200) false).2 =
      .error (.command (.edit (.denyOnEdit 2))) := by decide +kernel
  have hsame := hlaw dailyMeeting
    (editScope dailyMeeting (meetIn closedRoom .thisAndFollowing 200) false).1
    (meetIn closedRoom .thisAndFollowing 200) (.command (.edit (.denyOnEdit 2)))
    (Prod.ext rfl hdenied)
  have hseries : (editScope dailyMeeting
      (meetIn closedRoom .thisAndFollowing 200) false).1.series ≠ dailyMeeting.series := by
    decide +kernel
  exact hseries hsame.1

/-- The room is refused for the whole series, which stays one. -/
theorem deniedSeries_unchanged :
    SameTables dailyMeeting
      (editScope dailyMeeting (meetIn closedRoom .series 200) false).1 := by
  have hdenied : (editScope dailyMeeting (meetIn closedRoom .series 200) false).2 =
      .error (.command (.edit (.denyOnEdit 1))) := by decide +kernel
  refine (failedScope_unchanged_iff (Prod.ext rfl hdenied)).mpr ?_
  intro hsplits
  cases hsplits.following

end Prequest.Booking
