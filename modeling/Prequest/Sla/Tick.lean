import Prequest.Lib.Run
import Prequest.Shared.DataApi
import Prequest.Sla.Fire

/-!
# The SLA tick

Every minute `runBreachCheck` marks the timers that are past due as breached and
then calls `processThresholds`, which fires the thresholds of the timers that
are not breached. A threshold that becomes due at the due time, or that was
missed until then, is therefore fired by a tick at the very due time or by none.

* `recordsDue_of_guarded`: the law for every sequence of such ticks.

The at-risk pass between the two writes `sla_at_risk` only, which no other pass
reads.
-/

namespace Prequest.Sla

open Prequest.Lib Prequest.Command Prequest.Shared

/-! ## The breach pass -/

/-- `timer` is past due, runs, and is not marked yet. -/
def overdue (now : Int) (timer : SlaTimerRow) : Bool :=
  !timer.breached && timer.running && decide (timer.dueAt < now)

def selectOverdue (db : SlaDb) (now : Int) : List Nat :=
  ((db.timers.rows.filter (overdue now)).take 100).map SlaTimerRow.id

/-- `mark_sla_breached_batch`. -/
def markSlaBreachedBatch (db : SlaDb) (timerIds : List Nat) (now : Int) : SlaDb :=
  { db with
    timers := db.timers.update (fun t => timerIds.contains t.id && !t.breached)
      ⟨fun t => { t with breached := true, breachedAt := some now }, fun _ => rfl⟩ }

/-! ## The threshold pass -/

/-- The timers that the threshold pass selects, the earliest due first. -/
def selectActive (db : SlaDb) : List SlaTimerRow :=
  ((db.timers.rows.filter fun t => !t.breached && t.running).insertionSort
    fun s t => s.dueAt ≤ t.dueAt).take 500

/-- The keys of the crossings that reach the pass. -/
def firedKeysOf (db : SlaDb) (timers : List SlaTimerRow) : List CrossingKey :=
  (page (db.crossings.rows.filter fun c =>
    timers.any fun t => t.id == c.crossed.slaTimerId)).map Crossing.crossed

/-- What the threshold pass has to fire: each timer with its due thresholds, the lowest percentage
first. Keys that fire during the pass belong to other timers or were selected with this one. -/
def workList (db : SlaDb) (now : Int) : List (SlaTimerRow × List EscalationThreshold) :=
  let timers := selectActive db
  timers.map fun timer =>
    (timer, sortByPercent
      (selectApplicableThresholds timer now (db.thresholdsOf timer) (firedKeysOf db timers)))

section

variable (dir : Directory)

/-- The thresholds of one timer in order; an exception ends the timer, not the pass. -/
def fireAll (timer : SlaTimerRow) (db : SlaDb) : List EscalationThreshold → SlaDb
  | [] => db
  | threshold :: thresholds =>
      match fireThreshold dir timer threshold db with
      | .error _ => db
      | .ok db => fireAll timer db thresholds

def processThresholds (db : SlaDb) (now : Int) : SlaDb :=
  (workList db now).foldl (fun db work => fireAll dir work.1 db work.2) db

/-- `runBreachCheck`, the whole tick. -/
def tick (db : SlaDb) (now : Int) : SlaDb :=
  processThresholds dir (markSlaBreachedBatch db (selectOverdue db now) now) now

/-! ## The law -/

def Recorded (db : SlaDb) (timer : SlaTimerRow) (threshold : EscalationThreshold) : Prop :=
  (db.crossings.get? (crossingKey timer threshold)).isSome = true

instance (db : SlaDb) (timer : SlaTimerRow) (threshold : EscalationThreshold) :
    Decidable (Recorded db timer threshold) := by
  unfold Recorded
  infer_instance

/-- Every threshold that is due at `now` on a running timer has its crossing. -/
def AllDueRecorded (db : SlaDb) (now : Int) : Prop :=
  ∀ timer ∈ db.timers.rows, timer.running = true →
    ∀ threshold ∈ db.thresholdsOf timer, isDue timer now threshold = true →
      Recorded db timer threshold

instance (db : SlaDb) (now : Int) : Decidable (AllDueRecorded db now) := by
  unfold AllDueRecorded
  infer_instance

def RecordsDue (db : SlaDb) (ticks : List Int) : Prop :=
  ∀ pre now post, ticks = pre ++ now :: post →
    AllDueRecorded (run (tick dir) db (pre ++ [now])) now

/-- The state in which ticking starts: the timers fit in one batch, and no command was left
half done. -/
structure WithinBatch (db : SlaDb) : Prop where
  limit : db.timers.rows.length ≤ 100
  succeeded : AllSucceeded db

/-- The firings of one timer are admitted, each in the state that it finds. -/
def allAdmitted (timer : SlaTimerRow) (db : SlaDb) : List EscalationThreshold → Bool
  | [] => true
  | threshold :: thresholds =>
      admitted dir timer threshold db &&
        match fireThreshold dir timer threshold db with
        | .error _ => true
        | .ok db => allAdmitted timer db thresholds

def passAdmitted (db : SlaDb) : List (SlaTimerRow × List EscalationThreshold) → Bool
  | [] => true
  | w :: work => allAdmitted dir w.1 db w.2 && passAdmitted (fireAll dir w.1 db w.2) work

/-- A tick finds every due threshold that has not fired on a timer that is neither marked nor past
due, and each of its firings is admitted. -/
structure DueInTime (db : SlaDb) (now : Int) : Prop where
  inTime : ∀ timer ∈ db.timers.rows, timer.running = true →
    ∀ threshold ∈ db.thresholdsOf timer, isDue timer now threshold = true →
      ¬ Recorded db timer threshold → timer.breached = false ∧ now ≤ timer.dueAt
  admitted : passAdmitted dir (markSlaBreachedBatch db (selectOverdue db now) now)
    (workList (markSlaBreachedBatch db (selectOverdue db now) now) now) = true

end

/-! ## One tick -/

section

variable {dir : Directory} {db db' : SlaDb} {timer : SlaTimerRow}
  {threshold : EscalationThreshold} {thresholds : List EscalationThreshold}

theorem Kept.recorded (h : Kept db db') (hrecorded : Recorded db timer threshold) :
    Recorded db' timer threshold := by
  obtain ⟨c, hc⟩ := Option.isSome_iff_exists.mp hrecorded
  obtain ⟨hmem, hkey⟩ := Table.get?_eq_some.mp hc
  have hget : db'.crossings.get? (crossingKey timer threshold) = some c :=
    Table.get?_eq_some.mpr ⟨h.crossings c hmem, hkey⟩
  unfold Recorded
  rw [hget]
  rfl

theorem resolveTarget_congr
    (h : ∀ k, (db'.entities.get? k).map EntityRow.requesterPersonId =
      (db.entities.get? k).map EntityRow.requesterPersonId) (ticketId : Nat) :
    resolveTarget dir db' threshold ticketId = resolveTarget dir db threshold ticketId := by
  have hbind : ∀ k, (db'.entities.get? k).bind EntityRow.requesterPersonId =
      (db.entities.get? k).bind EntityRow.requesterPersonId := by
    intro k
    have hbind := congrArg (Option.bind · id) (h k)
    simpa only [Option.bind_map, Function.id_comp] using hbind
  simp only [resolveTarget, requesterOf, hbind]

theorem fireAll_kept (dir : Directory) (timer : SlaTimerRow) (db : SlaDb)
    (thresholds : List EscalationThreshold) : Kept db (fireAll dir timer db thresholds) := by
  induction thresholds generalizing db with
  | nil => exact .refl db
  | cons threshold thresholds ih =>
    rw [fireAll]
    split
    · exact .refl db
    · rename_i hfire
      exact (fireThreshold_kept hfire).trans (ih _)

theorem fireAll_records (hsucceeded : AllSucceeded db)
    (hadmitted : allAdmitted dir timer db thresholds = true) :
    ∀ t ∈ thresholds, Recorded (fireAll dir timer db thresholds) timer t := by
  induction thresholds generalizing db with
  | nil =>
    intro t ht
    cases ht
  | cons threshold thresholds ih =>
    rw [allAdmitted, Bool.and_eq_true] at hadmitted
    obtain ⟨mid, hfire, hrecorded⟩ := fireThreshold_ok hsucceeded hadmitted.1
    have hkept := fireThreshold_kept hfire
    rw [hfire] at hadmitted
    have hrest := ih (hkept.succeeded hsucceeded) hadmitted.2
    intro t ht
    simp only [fireAll, hfire]
    rcases List.mem_cons.mp ht with rfl | ht
    · exact (fireAll_kept dir timer mid thresholds).recorded hrecorded
    · exact hrest t ht

theorem foldl_fireAll_kept (work : List (SlaTimerRow × List EscalationThreshold)) :
    Kept db (work.foldl (fun db w => fireAll dir w.1 db w.2) db) := by
  induction work generalizing db with
  | nil => exact .refl db
  | cons w work ih =>
    rw [List.foldl_cons]
    exact (fireAll_kept dir w.1 db w.2).trans ih

theorem foldl_fireAll_records {work : List (SlaTimerRow × List EscalationThreshold)}
    (hsucceeded : AllSucceeded db) {w : SlaTimerRow × List EscalationThreshold} (hw : w ∈ work)
    (hadmitted : passAdmitted dir db work = true) :
    ∀ t ∈ w.2, Recorded (work.foldl (fun db w => fireAll dir w.1 db w.2) db) w.1 t := by
  induction work generalizing db with
  | nil => cases hw
  | cons v work ih =>
    intro t ht
    rw [passAdmitted, Bool.and_eq_true] at hadmitted
    rw [List.foldl_cons]
    rcases List.mem_cons.mp hw with rfl | hw
    · exact (foldl_fireAll_kept work).recorded (fireAll_records hsucceeded hadmitted.1 t ht)
    · exact ih ((fireAll_kept dir v.1 db v.2).succeeded hsucceeded) hw hadmitted.2 t ht

variable {now : Int} {timers : List SlaTimerRow}

theorem mem_markSlaBreachedBatch {timer' : SlaTimerRow}
    (h : timer' ∈ (markSlaBreachedBatch db (selectOverdue db now) now).timers.rows) :
    ∃ timer ∈ db.timers.rows,
      timer' = timer ∨ overdue now timer = true ∧
        timer' = { timer with breached := true, breachedAt := some now } := by
  obtain ⟨timer, htimer, rfl⟩ := Table.mem_update.mp h
  refine ⟨timer, htimer, ?_⟩
  unfold Table.updated
  split
  · rename_i hselected
    simp only [Bool.and_eq_true, List.contains_eq_mem, decide_eq_true_eq, selectOverdue,
      List.mem_map] at hselected
    obtain ⟨⟨t, ht, hid⟩, _⟩ := hselected
    obtain ⟨hmem, hoverdue⟩ := List.mem_filter.mp (List.mem_of_mem_take ht)
    rw [db.timers.eq_of_key_eq hmem htimer hid] at hoverdue
    exact .inr ⟨hoverdue, rfl⟩
  · exact .inl rfl

theorem mem_selectActive (hlimit : db.timers.rows.length ≤ 100) (htimer : timer ∈ db.timers.rows)
    (hbreached : timer.breached = false) (hrunning : timer.running = true) :
    timer ∈ selectActive db := by
  unfold selectActive
  rw [List.take_of_length_le]
  · rw [List.mem_insertionSort]
    exact List.mem_filter.mpr ⟨htimer, by rw [hbreached, hrunning]; rfl⟩
  · rw [List.length_insertionSort]
    exact (List.length_filter_le _ _).trans (hlimit.trans (by omega))

theorem recorded_of_mem_firedKeysOf (h : crossingKey timer threshold ∈ firedKeysOf db timers) :
    Recorded db timer threshold := by
  obtain ⟨c, hc, hkey⟩ := List.mem_map.mp h
  have hmem := (List.mem_filter.mp (mem_of_mem_page hc)).1
  exact Option.isSome_iff_exists.mpr ⟨c, Table.get?_eq_some.mpr ⟨hmem, hkey⟩⟩

theorem mem_workOf (hthreshold : threshold ∈ thresholds) (hdue : isDue timer now threshold = true)
    (hnew : ¬ Recorded db timer threshold) :
    threshold ∈ sortByPercent
      (selectApplicableThresholds timer now thresholds (firedKeysOf db timers)) := by
  rw [sortByPercent, List.mem_insertionSort, selectApplicableThresholds, List.mem_filter,
    Bool.and_eq_true, Bool.not_eq_true', List.contains_eq_mem, decide_eq_false_iff_not]
  exact ⟨hthreshold, hdue, fun hfired => hnew (recorded_of_mem_firedKeysOf hfired)⟩

theorem tick_allDueRecorded (hbatch : WithinBatch db) (hok : DueInTime dir db now) :
    AllDueRecorded (tick dir db now) now := by
  let marked := markSlaBreachedBatch db (selectOverdue db now) now
  have hkept : Kept marked (tick dir db now) := foldl_fireAll_kept _
  have hlimit : marked.timers.rows.length ≤ 100 := by
    simpa [marked, markSlaBreachedBatch, Table.update] using hbatch.limit
  intro timer' htimer' hrunning threshold hthreshold hdue
  rw [hkept.timers] at htimer'
  have hlist : ∀ t : SlaTimerRow, (tick dir db now).thresholdsOf t = db.thresholdsOf t := by
    intro t
    unfold SlaDb.thresholdsOf
    rw [hkept.policies]
    rfl
  rw [hlist] at hthreshold
  obtain ⟨timer, htimer, hsame⟩ := mem_markSlaBreachedBatch htimer'
  by_cases hrecorded : Recorded db timer' threshold
  · exact hkept.recorded hrecorded
  · rcases hsame with rfl | ⟨hoverdue, rfl⟩
    · have hbreached := (hok.inTime timer' htimer hrunning threshold hthreshold hdue hrecorded).1
      have hactive : timer' ∈ selectActive marked :=
        mem_selectActive hlimit htimer' hbreached hrunning
      have hwork : (timer', sortByPercent (selectApplicableThresholds timer' now
          (marked.thresholdsOf timer') (firedKeysOf marked (selectActive marked)))) ∈
          workList marked now :=
        List.mem_map_of_mem hactive
      have hsucceeded : AllSucceeded marked := hbatch.succeeded
      exact foldl_fireAll_records hsucceeded hwork hok.admitted threshold
        (mem_workOf hthreshold hdue hrecorded)
    · -- A timer that the breach pass marks was past due, so nothing was due on it.
      simp only [overdue, Bool.and_eq_true, decide_eq_true_eq] at hoverdue
      have hintime := (hok.inTime timer htimer hoverdue.1.2 threshold hthreshold hdue hrecorded).2
      omega

end

/-! ## Every sequence of ticks -/

theorem WithinBatch.tick {db : SlaDb} (h : WithinBatch db) (dir : Directory) (now : Int) :
    WithinBatch (tick dir db now) := by
  have hkept : Kept (markSlaBreachedBatch db (selectOverdue db now) now) (Sla.tick dir db now) :=
    foldl_fireAll_kept _
  refine ⟨?_, hkept.succeeded h.succeeded⟩
  rw [hkept.timers]
  simpa [markSlaBreachedBatch, Table.update] using h.limit

/-- Ticks that find every due threshold in time record every due threshold. -/
theorem recordsDue_of_guarded {dir : Directory} {db : SlaDb} {ticks : List Int}
    (hbatch : WithinBatch db) (hok : Guarded (tick dir) (DueInTime dir) db ticks) :
    RecordsDue dir db ticks := by
  intro pre now post hsplit
  have hbatch' : WithinBatch (run (tick dir) db pre) :=
    run_invariant (fun s now h => h.tick dir now) hbatch pre
  rw [run_append]
  exact tick_allDueRecorded hbatch' (guarded_iff.mp hok pre now post hsplit)

/-! ## A threshold at the due time -/

/-- One team and one user, whose person is active. -/
def oneOfEach : Directory where
  usersOfPerson := fun person => if person = 8 then [7] else []
  personOfUser := fun user => if user = 7 then some 8 else none
  managerOf := fun _ => none
  teamInTenant := fun team => team == 4
  userInTenant := fun user => user == 7
  vendorInTenant := fun _ => false
  activePerson := fun person => person == 8

/-- A timer of 1000 ms on the case of user 7, with a notification at 80 percent and an escalation to
team 4 at 100. -/
def hundredPercent : SlaDb where
  timers := ⟨[{ id := 1, ticketId := 2, slaPolicyId := 3, timerType := .resolution,
                startedAt := 0, dueAt := 1000 }], by decide⟩
  policies := ⟨[{ id := 3, name := "gold", valid := by decide, escalationThresholds := [
      ⟨80, .both, .notify, .team, some 4⟩, ⟨100, .resolution, .escalate, .team, some 4⟩] }],
    by decide⟩
  entities := ⟨[{ kind := .case, id := 2, assignedUserId := some 7 }], by decide⟩

theorem hundredPercent_withinBatch : WithinBatch hundredPercent :=
  ⟨by decide, by unfold AllSucceeded; decide⟩

/-- With ticks before and after the due time, the threshold at 100 percent never fires. -/
theorem hundredPercent_missed :
    ¬ ∀ dir db ticks, WithinBatch db → ticks.Pairwise (· < ·) → RecordsDue dir db ticks := by
  intro hlaw
  have hrecorded := hlaw oneOfEach hundredPercent [900, 1100] hundredPercent_withinBatch
    (by decide) [900] 1100 [] rfl
  revert hrecorded
  decide +kernel

/-- Ticks at 80 percent and at the very due time record both thresholds. -/
theorem hundredPercent_onTime : RecordsDue oneOfEach hundredPercent [800, 1000] := by
  refine recordsDue_of_guarded hundredPercent_withinBatch ⟨?_, ?_, trivial⟩
  · exact ⟨by decide +kernel, by decide +kernel⟩
  · exact ⟨by decide +kernel, by decide +kernel⟩

end Prequest.Sla
