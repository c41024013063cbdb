import Mathlib.Data.List.Sort
import Prequest.Booking.Db
import Prequest.Lib.Intervals
import Prequest.Shared.DataApi

/-!
# Free slots of several attendees

The finder merges the time that the attendees are busy, subtracts it from the window,
and walks over the rest on a grid of half hours until it has five slots. It reads all
live slots of the window in one query, whoever they belong to.

* `searchLaw_iff`: when the slots start at the first five free times on the grid with a room.
* `hiddenMeeting_offered`: a meeting that comes after a thousand slots of others.
-/

namespace Prequest.Booking.Finder

open Prequest.Lib Prequest.Shared

/-- A start, and an end that is not part of it. -/
abbrev Interval := Int × Int

/-- The loop of `mergeIntervals`, with the last interval of its result. -/
def mergeFrom (last : Interval) : List Interval → List Interval
  | [] => [last]
  | cur :: rest =>
      if cur.1 ≤ last.2 then mergeFrom (last.1, max last.2 cur.2) rest
      else last :: mergeFrom cur rest

def mergeIntervals (intervals : List Interval) : List Interval :=
  match intervals.mergeSort fun a b => decide (a.1 ≤ b.1) with
  | [] => []
  | first :: rest => mergeFrom first rest

/-- What follows the loop of `subtractIntervals`. -/
def freeAfter (winEnd cursor : Int) : List Interval :=
  if cursor < winEnd then [(cursor, winEnd)] else []

/-- The loop of `subtractIntervals` from `cursor` on, and what follows it. -/
def freeFrom (winEnd cursor : Int) : List Interval → List Interval
  | [] => freeAfter winEnd cursor
  | (bStart, bEnd) :: busy =>
      if bEnd ≤ cursor then freeFrom winEnd cursor busy
      else if winEnd ≤ bStart then freeAfter winEnd cursor
      else
        (if cursor < bStart then [(cursor, min bStart winEnd)] else []) ++
          if winEnd ≤ max cursor bEnd then freeAfter winEnd (max cursor bEnd)
          else freeFrom winEnd (max cursor bEnd) busy

def subtractIntervals (window : Interval) (busy : List Interval) : List Interval :=
  (freeFrom window.2 window.1 busy).filter fun i => decide (i.1 < i.2)

def stepMs : Int := 30 * 60 * 1000

def maxSlots : Nat := 5

/-- `Math.ceil(ms / step) * step`. -/
def roundUpTo (ms step : Int) : Int := (ms + (step - 1)) / step * step

structure Slot (ρ : Type) where
  startAt : Int
  endAt : Int
  rooms : List ρ

/-- The room picker, which may throw. -/
abbrev Picker (ρ : Type) := Int → Except String (List ρ)

section

variable {ρ : Type} (picker : Picker ρ) (durationMs : Int)

/-- The slot of a candidate, if the picker has a room; a picker that throws is passed over. -/
def slotAt? (cursor : Int) : Option (Slot ρ) :=
  match picker cursor with
  | .ok (room :: rooms) => some ⟨cursor, cursor + durationMs, room :: rooms⟩
  | _ => none

/-- The loop over the candidates of a free interval, with the rounds that are left. -/
def walkInterval (finish : Int) : Nat → Int → List (Slot ρ) → List (Slot ρ)
  | 0, _, slots => slots
  | rounds + 1, cursor, slots =>
      if cursor + durationMs ≤ finish ∧ slots.length < maxSlots then
        walkInterval finish rounds (cursor + stepMs) (slots ++ (slotAt? picker durationMs cursor).toList)
      else slots

def roundsOf (i : Interval) : Nat := ((i.2 - i.1) / stepMs).toNat + 1

def walkIntervals : List Interval → List (Slot ρ) → List (Slot ρ)
  | [], slots => slots
  | i :: free, slots =>
      if maxSlots ≤ slots.length then slots
      else walkIntervals free
        (walkInterval picker durationMs i.2 (roundsOf i) (roundUpTo i.1 stepMs) slots)

end

/-- A row of `booking_slots`, with the requester of its booking. -/
structure BusyRow where
  status : BookingStatus
  attendeePersonIds : Option (List Nat)
  requesterPersonId : Option Nat
  effectiveStartAt : Int
  effectiveEndAt : Int

def BusyRow.takes (personIds : List Nat) (row : BusyRow) : Bool :=
  (row.requesterPersonId.any fun p => personIds.contains p) ||
    (row.attendeePersonIds.getD []).any fun p => personIds.contains p

def BusyRow.interval (row : BusyRow) : Interval := (row.effectiveStartAt, row.effectiveEndAt)

def BusyRow.isActive (row : BusyRow) : Bool :=
  [.confirmed, .checkedIn, .pendingApproval].contains row.status

def BusyRow.isLoaded (window : Interval) (row : BusyRow) : Bool :=
  row.isActive && decide (row.effectiveStartAt < window.2) &&
    decide (window.1 < row.effectiveEndAt)

/-- The time of the attendees that is taken by the rows that reach the finder. -/
def readBusy (rows : List BusyRow) (personIds : List Nat) (window : Interval) : List Interval :=
  ((page (rows.filter (BusyRow.isLoaded window))).filter (BusyRow.takes personIds)).map
    BusyRow.interval

/-- `findFreeSlots`, over the rows of the tenant in the order in which the database finds them. -/
def findFreeSlots {ρ : Type} (picker : Picker ρ) (rows : List BusyRow) (personIds : List Nat)
    (durationMs : Int) (window : Interval) : List (Slot ρ) :=
  if personIds = [] ∨ window.2 ≤ window.1 ∨ durationMs ≤ 0 then []
  else
    let busy := readBusy rows personIds window
    walkIntervals picker durationMs (subtractIntervals window (mergeIntervals busy)) []

/-! ## What is wanted -/

/-- The time of the attendees that is taken. -/
def attendeesBusy (rows : List BusyRow) (personIds : List Nat) : List Interval :=
  ((rows.filter BusyRow.isActive).filter (BusyRow.takes personIds)).map BusyRow.interval

/-- The intervals stand apart, in order, and none is empty. -/
structure Separated (l : List Interval) : Prop where
  proper : ∀ i ∈ l, i.1 < i.2
  apart : l.Pairwise fun a b => a.2 < b.1

/-- A start on the half-hour grid, in the window, with nobody busy and a room. -/
structure IsFree {ρ : Type} (picker : Picker ρ) (busy : List Interval) (durationMs : Int)
    (window : Interval) (t : Int) : Prop where
  grid : stepMs ∣ t
  within : window.1 ≤ t ∧ t + durationMs ≤ window.2
  free : ∀ b ∈ busy, ¬Overlaps b t (t + durationMs)
  room : ∃ room rooms, picker t = .ok (room :: rooms)

/-- The three steps of the search are exact. -/
structure SearchLaw {ρ : Type} (picker : Picker ρ) (rows : List BusyRow) (personIds : List Nat)
    (durationMs : Int) (window : Interval) (busy : List Interval) : Prop where
  separated : Separated (mergeIntervals busy)
  merged : ∀ x, Covered (mergeIntervals busy) x ↔ Covered busy x
  rest : ∀ x, Covered (subtractIntervals window (mergeIntervals busy)) x ↔
    (window.1 ≤ x ∧ x < window.2) ∧ ¬Covered busy x
  slots : FirstOf maxSlots (IsFree picker busy durationMs window)
    ((findFreeSlots picker rows personIds durationMs window).map Slot.startAt)

/-! ## What is busy -/

variable {last : Interval} {rest : List Interval} {i : Interval} {x : Int} {free : List Interval}

theorem le_mergeFrom (hsorted : (last :: rest).Pairwise fun a b => a.1 ≤ b.1) :
    ∀ i ∈ mergeFrom last rest, last.1 ≤ i.1 := by
  induction rest generalizing last with
  | nil =>
    intro i hi
    rw [List.mem_singleton.mp hi]
  | cons cur rest ih =>
    obtain ⟨hlast, htail⟩ := List.pairwise_cons.mp hsorted
    unfold mergeFrom
    split
    · refine @ih (last.1, max last.2 cur.2) (List.pairwise_cons.mpr ⟨?_, ?_⟩)
      · exact fun i hi => hlast i (List.mem_cons_of_mem _ hi)
      · exact (List.pairwise_cons.mp htail).2
    · intro i hi
      rcases List.mem_cons.mp hi with rfl | hi
      · exact Int.le_refl _
      · exact Int.le_trans (hlast cur List.mem_cons_self) (ih htail i hi)

theorem mergeFrom_separated (hproper : ∀ i ∈ last :: rest, i.1 < i.2)
    (hsorted : (last :: rest).Pairwise fun a b => a.1 ≤ b.1) : Separated (mergeFrom last rest) := by
  induction rest generalizing last with
  | nil => exact ⟨hproper, List.pairwise_singleton _ _⟩
  | cons cur rest ih =>
    obtain ⟨hlast, htail⟩ := List.pairwise_cons.mp hsorted
    have hfirst := hproper last List.mem_cons_self
    have hrest : ∀ i ∈ cur :: rest, i.1 < i.2 := fun i hi => hproper i (List.mem_cons_of_mem _ hi)
    unfold mergeFrom
    split
    · refine @ih (last.1, max last.2 cur.2) ?_ (List.pairwise_cons.mpr ⟨?_, ?_⟩)
      · intro i hi
        rcases List.mem_cons.mp hi with rfl | hi
        · exact Int.lt_of_lt_of_le hfirst (Int.le_max_left _ _)
        · exact hrest i (List.mem_cons_of_mem _ hi)
      · exact fun i hi => hlast i (List.mem_cons_of_mem _ hi)
      · exact (List.pairwise_cons.mp htail).2
    · rename_i hgap
      obtain ⟨hmerged, hapart⟩ := ih hrest htail
      refine ⟨List.forall_mem_cons.mpr ⟨hfirst, hmerged⟩, List.pairwise_cons.mpr ⟨?_, hapart⟩⟩
      intro i hi
      exact Int.lt_of_lt_of_le (Int.not_le.mp hgap) (le_mergeFrom htail i hi)

theorem mergeFrom_covered (hsorted : (last :: rest).Pairwise fun a b => a.1 ≤ b.1) :
    Covered (mergeFrom last rest) x ↔ Covered (last :: rest) x := by
  induction rest generalizing last with
  | nil => rfl
  | cons cur rest ih =>
    obtain ⟨hlast, htail⟩ := List.pairwise_cons.mp hsorted
    have hstart := hlast cur List.mem_cons_self
    unfold mergeFrom
    split
    · rename_i htouch
      have hmerged : (last.1 ≤ x ∧ x < max last.2 cur.2) ↔
          (last.1 ≤ x ∧ x < last.2) ∨ (cur.1 ≤ x ∧ x < cur.2) := by omega
      rw [@ih (last.1, max last.2 cur.2) (List.pairwise_cons.mpr
          ⟨fun i hi => hlast i (List.mem_cons_of_mem _ hi), (List.pairwise_cons.mp htail).2⟩),
        covered_cons, covered_cons, covered_cons, hmerged, or_assoc]
    · rw [covered_cons, covered_cons, ih htail]

theorem sorted_mergeSort (intervals : List Interval) :
    (intervals.mergeSort fun a b => decide (a.1 ≤ b.1)).Pairwise fun a b => a.1 ≤ b.1 := by
  have hsorted := @List.pairwise_mergeSort Interval (fun a b => decide (a.1 ≤ b.1))
    (fun a b c hab hbc => decide_eq_true (Int.le_trans (of_decide_eq_true hab) (of_decide_eq_true hbc)))
    (fun a b => by
      rw [Bool.or_eq_true, decide_eq_true_eq, decide_eq_true_eq]
      exact Int.le_total a.1 b.1) intervals
  exact hsorted.imp of_decide_eq_true

section

variable {intervals : List Interval}

theorem mergeIntervals_covered : Covered (mergeIntervals intervals) x ↔ Covered intervals x := by
  have hsorted := sorted_mergeSort intervals
  rw [← covered_of_perm (List.mergeSort_perm intervals fun a b => decide (a.1 ≤ b.1))]
  unfold mergeIntervals
  split
  · rename_i hnil
    rw [hnil]
  · rename_i first rest hcons
    rw [hcons] at hsorted ⊢
    exact mergeFrom_covered hsorted

theorem mergeIntervals_separated (hproper : ∀ i ∈ intervals, i.1 < i.2) :
    Separated (mergeIntervals intervals) := by
  have hsorted := sorted_mergeSort intervals
  unfold mergeIntervals
  split
  · exact ⟨fun _ hi => absurd hi List.not_mem_nil, List.Pairwise.nil⟩
  · rename_i first rest hcons
    rw [hcons] at hsorted
    refine mergeFrom_separated (fun i hi => hproper i ?_) hsorted
    rw [← hcons] at hi
    exact List.mem_mergeSort.mp hi

end

/-! ## What is free -/

section

variable {busy : List Interval} {winEnd cursor : Int}

theorem mem_freeAfter : i ∈ freeAfter winEnd cursor ↔ cursor < winEnd ∧ i = (cursor, winEnd) := by
  unfold freeAfter
  split
  · rename_i hlt
    rw [List.mem_singleton]
    exact (and_iff_right hlt).symm
  · rename_i hge
    exact iff_of_false List.not_mem_nil fun h => hge h.1

theorem freeFrom_sound (hsorted : busy.Pairwise fun a b => a.1 ≤ b.1) :
    ∀ i ∈ freeFrom winEnd cursor busy,
      cursor ≤ i.1 ∧ i.1 < i.2 ∧ i.2 ≤ winEnd ∧ ∀ b ∈ busy, ¬Overlaps b i.1 i.2 := by
  induction busy generalizing cursor with
  | nil =>
    intro i hi
    obtain ⟨hlt, rfl⟩ := mem_freeAfter.mp hi
    exact ⟨Int.le_refl _, hlt, Int.le_refl _, fun _ hb => absurd hb List.not_mem_nil⟩
  | cons b busy ih =>
    obtain ⟨bStart, bEnd⟩ := b
    obtain ⟨hfirst, htail⟩ := List.pairwise_cons.mp hsorted
    intro i hi
    unfold freeFrom at hi
    split at hi
    · rename_i hpast
      obtain ⟨hcursor, hlt, hend, hfree⟩ := ih htail i hi
      refine ⟨hcursor, hlt, hend, List.forall_mem_cons.mpr ⟨fun hover => ?_, hfree⟩⟩
      exact absurd hover.2 (Int.not_lt.mpr (Int.le_trans hpast hcursor))
    rename_i hpast
    split at hi
    · rename_i hlate
      obtain ⟨hlt, rfl⟩ := mem_freeAfter.mp hi
      refine ⟨Int.le_refl _, hlt, Int.le_refl _, ?_⟩
      intro b' hb' hover
      have hstart : bStart ≤ b'.1 := by
        rcases List.mem_cons.mp hb' with rfl | hb'
        · exact Int.le_refl _
        · exact hfirst b' hb'
      exact absurd hover.1 (Int.not_lt.mpr (Int.le_trans hlate hstart))
    rename_i hlate
    rcases List.mem_append.mp hi with hi | hi
    · -- the part before the busy interval
      split at hi
      · rename_i hbefore
        obtain rfl := List.mem_singleton.mp hi
        have hmin : min bStart winEnd = bStart := Int.min_eq_left (by omega)
        rw [hmin]
        refine ⟨Int.le_refl _, hbefore, by omega, List.forall_mem_cons.mpr ⟨?_, ?_⟩⟩
        · exact fun hover => absurd hover.1 (Int.lt_irrefl _)
        · exact fun b' hb' hover => absurd hover.1 (Int.not_lt.mpr (hfirst b' hb'))
      · exact absurd hi List.not_mem_nil
    · split at hi
      · rename_i hover
        exact absurd (mem_freeAfter.mp hi).1 (Int.not_lt.mpr hover)
      · obtain ⟨hcursor, hlt, hend, hfree⟩ := ih htail i hi
        refine ⟨by omega, hlt, hend, List.forall_mem_cons.mpr ⟨fun hover => ?_, hfree⟩⟩
        have hstart := hover.2
        dsimp only at hstart
        omega

theorem freeFrom_complete {s e : Int} (hcursor : cursor ≤ s) (hse : s < e) (hend : e ≤ winEnd)
    (hfree : ∀ b ∈ busy, ¬Overlaps b s e) :
    ∃ i ∈ freeFrom winEnd cursor busy, i.1 ≤ s ∧ e ≤ i.2 := by
  have hafter : (cursor, winEnd) ∈ freeAfter winEnd cursor := mem_freeAfter.mpr ⟨by omega, rfl⟩
  induction busy generalizing cursor with
  | nil => exact ⟨_, hafter, hcursor, hend⟩
  | cons b busy ih =>
    obtain ⟨bStart, bEnd⟩ := b
    obtain ⟨hb, hbusy⟩ := List.forall_mem_cons.mp hfree
    have hside : e ≤ bStart ∨ bEnd ≤ s := by
      unfold Overlaps at hb
      dsimp only at hb
      omega
    unfold freeFrom
    split
    · exact ih hcursor hbusy hafter
    split
    · exact ⟨_, hafter, hcursor, hend⟩
    rcases hside with hbefore | hbehind
    · refine ⟨(cursor, min bStart winEnd), List.mem_append_left _ ?_, hcursor, by dsimp only; omega⟩
      rw [if_pos (by omega)]
      exact List.mem_singleton_self _
    · have hnext : max cursor bEnd ≤ s := by omega
      have hmore : ¬winEnd ≤ max cursor bEnd := by omega
      rw [if_neg hmore]
      obtain ⟨i, hi, hlies⟩ := ih hnext hbusy (mem_freeAfter.mpr ⟨by omega, rfl⟩)
      exact ⟨i, List.mem_append_right _ hi, hlies⟩

theorem freeFrom_sorted (hproper : ∀ b ∈ busy, b.1 < b.2)
    (hsorted : busy.Pairwise fun a b => a.1 ≤ b.1) :
    (freeFrom winEnd cursor busy).Pairwise fun a b => a.2 ≤ b.1 := by
  have hafter : ∀ cursor, (freeAfter winEnd cursor).Pairwise fun a b => a.2 ≤ b.1 := by
    intro cursor
    unfold freeAfter
    split
    · exact List.pairwise_singleton _ _
    · exact List.Pairwise.nil
  induction busy generalizing cursor with
  | nil => exact hafter cursor
  | cons b busy ih =>
    obtain ⟨bStart, bEnd⟩ := b
    obtain ⟨hb, hbusy⟩ := List.forall_mem_cons.mp hproper
    obtain ⟨_, htail⟩ := List.pairwise_cons.mp hsorted
    unfold freeFrom
    split
    · exact ih hbusy htail
    split
    · exact hafter cursor
    split
    · rename_i hbefore
      refine List.pairwise_cons.mpr ⟨?_, ?_⟩
      · intro i hi
        have hstart : max cursor bEnd ≤ i.1 := by
          split at hi
          · exact Int.le_of_eq (congrArg Prod.fst (mem_freeAfter.mp hi).2).symm
          · exact (freeFrom_sound htail i hi).1
        dsimp only at hb ⊢
        omega
      · split
        · exact hafter _
        · exact ih hbusy htail
    · rw [List.nil_append]
      split
      · exact hafter _
      · exact ih hbusy htail

end

section

variable {window : Interval} {busy : List Interval}

theorem mem_subtractIntervals (hsorted : busy.Pairwise fun a b => a.1 ≤ b.1) :
    i ∈ subtractIntervals window busy ↔ i ∈ freeFrom window.2 window.1 busy := by
  unfold subtractIntervals
  rw [List.mem_filter, decide_eq_true_eq]
  exact and_iff_left_of_imp fun hi => (freeFrom_sound hsorted i hi).2.1

theorem subtractIntervals_covered (hsorted : busy.Pairwise fun a b => a.1 ≤ b.1) :
    Covered (subtractIntervals window busy) x ↔
      (window.1 ≤ x ∧ x < window.2) ∧ ¬Covered busy x := by
  constructor
  · rintro ⟨i, hi, hix, hxi⟩
    obtain ⟨hcursor, _, hend, hfree⟩ := freeFrom_sound hsorted i ((mem_subtractIntervals hsorted).mp hi)
    refine ⟨⟨by omega, by omega⟩, ?_⟩
    rintro ⟨b, hb, hbx, hxb⟩
    exact hfree b hb ⟨by omega, by omega⟩
  · rintro ⟨⟨hstart, hend⟩, hfree⟩
    obtain ⟨i, hi, hix, hxi⟩ := @freeFrom_complete busy _ _ x (x + 1) hstart (by omega) hend
      fun b hb hover => hfree ⟨b, hb, by have := hover.1; omega, hover.2⟩
    exact ⟨i, (mem_subtractIntervals hsorted).mpr hi, hix, by omega⟩

end

/-! ## The walk -/

/-- The candidates of a free interval. -/
def candidates (durationMs finish : Int) : Nat → Int → List Int
  | 0, _ => []
  | rounds + 1, cursor =>
      if cursor + durationMs ≤ finish then
        cursor :: candidates durationMs finish rounds (cursor + stepMs)
      else []

/-- The candidates of a free interval, from the first time on the grid on. -/
def startsIn (durationMs : Int) (i : Interval) : List Int :=
  candidates durationMs i.2 (roundsOf i) (roundUpTo i.1 stepMs)

section

variable {durationMs finish cursor : Int} {rounds : Nat} {t : Int}

theorem mem_candidates (hgrid : stepMs ∣ cursor) (hduration : 0 < durationMs)
    (hrounds : finish ≤ cursor + rounds * stepMs) :
    t ∈ candidates durationMs finish rounds cursor ↔
      stepMs ∣ t ∧ cursor ≤ t ∧ t + durationMs ≤ finish := by
  have hstep : stepMs = 1800000 := rfl
  rw [hstep] at hgrid hrounds ⊢
  induction rounds generalizing cursor with
  | zero => exact iff_of_false List.not_mem_nil fun h => by omega
  | succ rounds ih =>
    unfold candidates
    split
    · have hnext := @ih (cursor + 1800000) (by omega) (by omega)
      rw [List.mem_cons, hstep]
      refine (or_congr_right hnext).trans ?_
      omega
    · exact iff_of_false List.not_mem_nil fun h => by omega

theorem sorted_candidates (hgrid : stepMs ∣ cursor) (hduration : 0 < durationMs)
    (hrounds : finish ≤ cursor + rounds * stepMs) :
    (candidates durationMs finish rounds cursor).Pairwise (· < ·) := by
  have hstep : stepMs = 1800000 := rfl
  induction rounds generalizing cursor with
  | zero => exact List.Pairwise.nil
  | succ rounds ih =>
    have hgrid' : stepMs ∣ cursor + stepMs := Int.dvd_add hgrid (Int.dvd_refl stepMs)
    have hrounds' : finish ≤ cursor + stepMs + rounds * stepMs := by
      rw [hstep] at hrounds ⊢
      omega
    unfold candidates
    split
    · refine List.pairwise_cons.mpr ⟨?_, ih hgrid' hrounds'⟩
      intro t ht
      have hle := ((mem_candidates hgrid' hduration hrounds').mp ht).2.1
      omega
    · exact List.Pairwise.nil

theorem roundUpTo_spec (ms : Int) :
    stepMs ∣ roundUpTo ms stepMs ∧ ms ≤ roundUpTo ms stepMs ∧
      ∀ t, stepMs ∣ t → ms ≤ t → roundUpTo ms stepMs ≤ t := by
  have hstep : stepMs = 1800000 := rfl
  unfold roundUpTo
  rw [hstep]
  exact ⟨by omega, by omega, fun t ht hle => by omega⟩

theorem roundsOf_spec (i : Interval) : i.2 ≤ roundUpTo i.1 stepMs + roundsOf i * stepMs := by
  have hle := (roundUpTo_spec i.1).2.1
  have hstep : stepMs = 1800000 := rfl
  unfold roundsOf
  rw [hstep] at hle ⊢
  omega

theorem mem_startsIn (hduration : 0 < durationMs) :
    t ∈ startsIn durationMs i ↔ stepMs ∣ t ∧ i.1 ≤ t ∧ t + durationMs ≤ i.2 := by
  obtain ⟨hgrid, hle, hleast⟩ := roundUpTo_spec i.1
  unfold startsIn
  rw [mem_candidates hgrid hduration (roundsOf_spec i)]
  constructor
  · exact fun ⟨ht, hstart, hend⟩ => ⟨ht, Int.le_trans hle hstart, hend⟩
  · exact fun ⟨ht, hstart, hend⟩ => ⟨ht, hleast t ht hstart, hend⟩

theorem sorted_starts (hduration : 0 < durationMs) (hfree : free.Pairwise fun a b => a.2 ≤ b.1) :
    (free.flatMap (startsIn durationMs)).Pairwise (· < ·) := by
  rw [List.pairwise_flatMap]
  constructor
  · exact fun i _ => sorted_candidates (roundUpTo_spec i.1).1 hduration (roundsOf_spec i)
  · refine hfree.imp ?_
    intro i j hij t ht t' ht'
    have hend := ((mem_startsIn hduration).mp ht).2.2
    have hstart := ((mem_startsIn hduration).mp ht').2.1
    omega

end

section

variable {ρ : Type} {picker : Picker ρ} {durationMs finish cursor : Int} {slots : List (Slot ρ)}

theorem length_toList_le (slot : Option (Slot ρ)) : slot.toList.length ≤ 1 := by
  cases slot with
  | none => exact Nat.zero_le 1
  | some slot => exact Nat.le_refl 1

theorem walkInterval_eq {rounds : Nat} (hslots : slots.length ≤ maxSlots) :
    walkInterval picker durationMs finish rounds cursor slots =
      (slots ++ (candidates durationMs finish rounds cursor).filterMap
        (slotAt? picker durationMs)).take maxSlots := by
  have hsame : slots = (slots ++ []).take maxSlots := by
    rw [List.append_nil, List.take_of_length_le hslots]
  induction rounds generalizing cursor slots with
  | zero => exact hsame
  | succ rounds ih =>
    unfold walkInterval candidates
    by_cases hfits : cursor + durationMs ≤ finish
    · rw [if_pos hfits, List.filterMap_cons]
      by_cases hshort : slots.length < maxSlots
      · have hnext : (slots ++ (slotAt? picker durationMs cursor).toList).length ≤ maxSlots := by
          have hone := length_toList_le (slotAt? picker durationMs cursor)
          rw [List.length_append]
          omega
        rw [if_pos ⟨hfits, hshort⟩, ih hnext (by rw [List.append_nil, List.take_of_length_le hnext])]
        cases slotAt? picker durationMs cursor with
        | none => rw [Option.toList_none, List.append_nil]
        | some slot => rw [Option.toList_some, List.append_assoc, List.singleton_append]
      · have hfull : slots.length = maxSlots := by omega
        rw [if_neg fun h => hshort h.2, ← hfull]
        exact (List.take_left ..).symm
    · rw [if_neg fun h => hfits h.1, if_neg hfits]
      exact hsame

theorem take_take_append {α : Type} (n : Nat) (l l' : List α) :
    (l.take n ++ l').take n = (l ++ l').take n := by
  rw [List.take_append, List.take_append, List.take_take, Nat.min_self, List.length_take]
  congr 2
  omega

theorem walkIntervals_eq (hslots : slots.length ≤ maxSlots) :
    walkIntervals picker durationMs free slots =
      (slots ++ (free.flatMap (startsIn durationMs)).filterMap
        (slotAt? picker durationMs)).take maxSlots := by
  induction free generalizing slots with
  | nil =>
    rw [List.flatMap_nil, List.filterMap_nil, List.append_nil, List.take_of_length_le hslots]
    rfl
  | cons i free ih =>
    unfold walkIntervals
    by_cases hfull : maxSlots ≤ slots.length
    · rw [if_pos hfull, ← Nat.le_antisymm hslots hfull]
      exact (List.take_left ..).symm
    · rw [if_neg hfull, walkInterval_eq hslots, ih (List.length_take_le _ _), take_take_append,
        List.flatMap_cons, List.filterMap_append, List.append_assoc]
      rfl

theorem map_startAt (starts : List Int) :
    (starts.filterMap (slotAt? picker durationMs)).map Slot.startAt =
      starts.filter fun t => (slotAt? picker durationMs t).isSome := by
  induction starts with
  | nil => rfl
  | cons t starts ih =>
    have hstart : ∀ slot, slotAt? picker durationMs t = some slot → slot.startAt = t := by
      intro slot hslot
      unfold slotAt? at hslot
      split at hslot
      · exact congrArg Slot.startAt (Option.some.inj hslot).symm
      · cases hslot
    cases hslot : slotAt? picker durationMs t with
    | none => rw [List.filterMap_cons_none hslot, List.filter_cons_of_neg (by simp [hslot]), ih]
    | some slot =>
      rw [List.filterMap_cons_some hslot, List.filter_cons_of_pos (by simp [hslot]), List.map_cons,
        hstart slot hslot, ih]

theorem slotAt?_isSome {t : Int} :
    (slotAt? picker durationMs t).isSome = true ↔ ∃ room rooms, picker t = .ok (room :: rooms) := by
  unfold slotAt?
  split
  · rename_i room rooms hpicked
    exact iff_of_true rfl ⟨room, rooms, hpicked⟩
  · rename_i hother
    exact iff_of_false nofun fun ⟨room, rooms, hpicked⟩ => hother room rooms hpicked

end

/-! ## The search -/

section

variable {rows : List BusyRow} {personIds : List Nat} {window : Interval}

theorem mem_attendeesBusy {b : Interval} (h : b ∈ readBusy rows personIds window) :
    b ∈ attendeesBusy rows personIds := by
  simp only [readBusy, attendeesBusy, List.mem_map, List.mem_filter] at h ⊢
  obtain ⟨row, ⟨hrow, htakes⟩, rfl⟩ := h
  have hloaded := mem_of_mem_page hrow
  rw [List.mem_filter, BusyRow.isLoaded, Bool.and_eq_true, Bool.and_eq_true] at hloaded
  exact ⟨row, ⟨⟨hloaded.1, hloaded.2.1.1⟩, htakes⟩, rfl⟩

theorem mem_readBusy {b : Interval}
    (hpage : (rows.filter (BusyRow.isLoaded window)).length ≤ maxRows)
    (h : b ∈ attendeesBusy rows personIds) (hover : Overlaps b window.1 window.2) :
    b ∈ readBusy rows personIds window := by
  rw [readBusy, page_eq_self_iff.mpr hpage]
  simp only [attendeesBusy, List.mem_map, List.mem_filter, BusyRow.isLoaded, Bool.and_eq_true,
    decide_eq_true_eq] at h ⊢
  obtain ⟨row, ⟨⟨hrow, hactive⟩, htakes⟩, rfl⟩ := h
  exact ⟨row, ⟨⟨hrow, ⟨hactive, hover.1⟩, hover.2⟩, htakes⟩, rfl⟩

end

theorem Separated.sorted {l : List Interval} (h : Separated l) :
    l.Pairwise fun a b => a.1 ≤ b.1 := by
  refine h.apart.imp_of_mem ?_
  intro a b ha _ hab
  have hproper := h.proper a ha
  omega

theorem not_overlaps_mergeIntervals {busy : List Interval} (hproper : ∀ i ∈ busy, i.1 < i.2)
    {s e : Int} (hse : s < e) :
    (∀ b ∈ mergeIntervals busy, ¬Overlaps b s e) ↔ ∀ b ∈ busy, ¬Overlaps b s e := by
  rw [not_overlaps_iff (mergeIntervals_separated hproper).proper hse, not_overlaps_iff hproper hse]
  simp only [mergeIntervals_covered]

section

variable {ρ : Type} {picker : Picker ρ} {rows : List BusyRow} {personIds : List Nat}
  {durationMs : Int} {window : Interval} {busy : List Interval}

/-- The search is exact for the rows that are read. -/
theorem findFreeSlots_firstOf (hproper : ∀ i ∈ readBusy rows personIds window, i.1 < i.2)
    (hpersons : personIds ≠ []) (hwindow : window.1 < window.2) (hduration : 0 < durationMs) :
    FirstOf maxSlots (IsFree picker (readBusy rows personIds window) durationMs window)
      ((findFreeSlots picker rows personIds durationMs window).map Slot.startAt) := by
  have hargs : ¬(personIds = [] ∨ window.2 ≤ window.1 ∨ durationMs ≤ 0) := by
    rintro (hnil | hempty | hzero)
    · exact hpersons hnil
    · omega
    · omega
  unfold findFreeSlots
  rw [if_neg hargs]
  dsimp only
  generalize readBusy rows personIds window = loaded at hproper ⊢
  have hseparated := mergeIntervals_separated hproper
  have hfree := @freeFrom_sound _ window.2 window.1 hseparated.sorted
  rw [walkIntervals_eq (Nat.zero_le _), List.nil_append, List.map_take, map_startAt]
  refine firstOf_take ?_ ?_
  · refine (sorted_starts hduration ?_).filter _
    exact (freeFrom_sorted hseparated.proper hseparated.sorted).filter _
  · intro t
    rw [List.mem_filter, slotAt?_isSome, List.mem_flatMap]
    constructor
    · rintro ⟨⟨i, hi, ht⟩, hroom⟩
      obtain ⟨hgrid, hstart, hend⟩ := (mem_startsIn hduration).mp ht
      obtain ⟨hcursor, _, hlast, hclear⟩ := hfree i ((mem_subtractIntervals hseparated.sorted).mp hi)
      refine ⟨hgrid, ⟨by omega, by omega⟩, ?_, hroom⟩
      refine (not_overlaps_mergeIntervals hproper (by omega)).mp fun b hb hover => ?_
      exact hclear b hb ⟨by have := hover.1; omega, by have := hover.2; omega⟩
    · rintro ⟨hgrid, ⟨hstart, hend⟩, hclear, hroom⟩
      have hclear' := (not_overlaps_mergeIntervals hproper (by omega)).mpr hclear
      obtain ⟨i, hi, hit, hti⟩ := freeFrom_complete hstart (by omega) hend hclear'
      exact ⟨⟨i, (mem_subtractIntervals hseparated.sorted).mpr hi,
        (mem_startsIn hduration).mpr ⟨hgrid, hit, hti⟩⟩, hroom⟩

variable (picker rows personIds durationMs window) in
/-- Where a slot of an attendee takes a start that is free of the rows that are read, five such
starts come before it. -/
def NothingHidden : Prop :=
  ∀ b ∈ attendeesBusy rows personIds, ∀ t, Overlaps b t (t + durationMs) →
    IsFree picker (readBusy rows personIds window) durationMs window t →
      Beyond maxSlots (IsFree picker (readBusy rows personIds window) durationMs window) t

/-- All rows of the window fit in a response. -/
theorem nothingHidden_of_page (hpage : (rows.filter (BusyRow.isLoaded window)).length ≤ maxRows) :
    NothingHidden picker rows personIds durationMs window := by
  intro b hb t hover hfree
  obtain ⟨hstart, hend⟩ := hfree.within
  refine absurd hover (hfree.free b (mem_readBusy hpage hb ⟨?_, ?_⟩))
  · have hbefore := hover.1
    omega
  · have hafter := hover.2
    omega

/-- The search is exact exactly when no row that is not read takes one of its starts. -/
theorem searchLaw_iff (hbusy : attendeesBusy rows personIds = busy)
    (hproper : ∀ i ∈ busy, i.1 < i.2) (hpersons : personIds ≠ []) (hwindow : window.1 < window.2)
    (hduration : 0 < durationMs) :
    SearchLaw picker rows personIds durationMs window busy ↔
      NothingHidden picker rows personIds durationMs window := by
  subst hbusy
  have hread := @findFreeSlots_firstOf _ picker _ _ _ _
    (fun i hi => hproper i (mem_attendeesBusy hi)) hpersons hwindow hduration
  constructor
  · intro hlaw b hb t hover hfree
    by_contra hfirst
    exact (hlaw.slots.sound t (hread.mem_of_not_beyond hfree hfirst)).free b hb hover
  · intro hclear
    have hmerged := mergeIntervals_separated hproper
    refine ⟨hmerged, fun x => mergeIntervals_covered, fun x => ?_, hread.restrict ?_ ?_⟩
    · rw [subtractIntervals_covered hmerged.sorted, mergeIntervals_covered]
    · rintro t ⟨hgrid, hwithin, hfree, hroom⟩
      exact ⟨hgrid, hwithin, fun b hb => hfree b (mem_attendeesBusy hb), hroom⟩
    · intro t ht
      have hfree := hread.sound t ht
      refine ⟨hfree.grid, hfree.within, fun b hb hover => ?_, hfree.room⟩
      exact hread.not_beyond ht (hclear b hb t hover hfree)

end

/-- One attendee, busy from nine to ten, and a window of four hours. -/
theorem searchLaw_oneMeeting : SearchLaw (fun t => if t = 0 then .error "" else .ok [()])
    [⟨.confirmed, some [7], none, 3600000, 7200000⟩] [7] 3600000 (0, 14400000)
    [(3600000, 7200000)] :=
  (searchLaw_iff rfl (by decide) (by decide) (by decide) (by decide)).mpr
    (nothingHidden_of_page (by decide))

/-- A thousand slots of others, and the meeting of the attendee. -/
def hiddenMeeting : List BusyRow :=
  List.replicate 1000 ⟨.confirmed, some [8], none, 3600000, 7200000⟩ ++
    [⟨.confirmed, some [7], none, 3600000, 7200000⟩]

theorem hiddenMeeting_read : readBusy hiddenMeeting [7] (0, 14400000) = [] := by
  decide +kernel

/-- A room that is free at the time of the meeting only, so this time is offered. -/
theorem hiddenMeeting_offered :
    ¬ ∀ (picker : Picker Unit) (rows : List BusyRow) (personIds : List Nat) (durationMs : Int)
      (window : Interval), (∀ i ∈ attendeesBusy rows personIds, i.1 < i.2) → personIds ≠ [] →
      window.1 < window.2 → 0 < durationMs →
        SearchLaw picker rows personIds durationMs window (attendeesBusy rows personIds) := by
  intro hlaw
  have hbusy : attendeesBusy hiddenMeeting [7] = [(3600000, 7200000)] := by decide +kernel
  have hslots := (hlaw (fun t => .ok (if t = 3600000 then [()] else [])) hiddenMeeting [7] 3600000
    (0, 14400000) (by rw [hbusy]; decide) (by decide) (by decide) (by decide)).slots
  have hread := @findFreeSlots_firstOf _ (fun t => .ok (if t = 3600000 then [()] else []))
    hiddenMeeting [7] 3600000 (0, 14400000) (by rw [hiddenMeeting_read]; decide) (by decide)
    (by decide) (by decide)
  rw [hiddenMeeting_read] at hread
  have hfree : IsFree (fun t => .ok (if t = 3600000 then [()] else [])) [] 3600000 (0, 14400000)
      3600000 := ⟨by decide, by decide, fun _ hb => absurd hb List.not_mem_nil, (), [], rfl⟩
  rcases hread.complete _ hfree with hoffered | ⟨hfull, hbefore⟩
  · have hclear := (hslots.sound _ hoffered).free (3600000, 7200000)
      (by rw [hbusy]; exact List.mem_singleton_self _)
    exact hclear ⟨by decide, by decide⟩
  · -- Another start would have a room, too.
    obtain ⟨t, ht⟩ := List.exists_mem_of_length_pos (hfull ▸ (by decide : 0 < maxSlots))
    obtain ⟨room, rooms, hroom⟩ := (hread.sound t ht).room
    have hlt := hbefore t ht
    rw [if_neg (by omega)] at hroom
    cases hroom

end Prequest.Booking.Finder
