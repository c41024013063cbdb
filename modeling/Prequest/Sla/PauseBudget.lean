import Prequest.Lib.Run
import Prequest.Sla.OpenMinutes
import Prequest.Sla.Timer

/-!
# The budget of a paused timer

A timer is paused while its ticket waits. When it resumes its due time is moved
by the business minutes of the pause, so what was left of it is left again.
Both minutes and move come from loops that end at a cap.

* `conserves_iff`: so does every run of pairs.
-/

namespace Prequest.Sla

open Prequest.Lib Prequest.Lib.Calendar

/-! ## Pauses -/

/-- A row of `sla_timers` with what a pause reads and writes. -/
structure PausableTimerRow extends SlaTimerRow where
  pausedAt : Option Int := none
  totalPausedMinutes : Nat := 0
  businessHoursCalendarId : Option Nat := none
  deriving DecidableEq, Repr

instance : Keyed PausableTimerRow Nat where
  key timer := timer.id

/-- What `loadCalendar` finds. -/
def loadCalendar (calendars : Nat → Option BusinessHoursCalendar) (timer : PausableTimerRow) :
    Option BusinessHoursCalendar :=
  timer.businessHoursCalendarId.bind calendars

def pauseTimers (ticketId : Nat) (now : Int) (timers : Table PausableTimerRow) :
    Table PausableTimerRow :=
  timers.update
    (fun timer => timer.ticketId == ticketId && !timer.paused && timer.completedAt.isNone &&
      timer.stoppedAt.isNone)
    ⟨fun timer => { timer with paused := true, pausedAt := some now }, fun _ => rfl⟩

/-- What `resumeTimers` writes to a timer. A `paused_at` that is not there is the epoch. -/
def resumed (calendar : Option BusinessHoursCalendar) (now : Int) (timer : PausableTimerRow) :
    PausableTimerRow :=
  let businessMinutesPaused := businessMinutesBetween calendar (timer.pausedAt.getD 0) now
  { timer with
    paused := false
    pausedAt := none
    totalPausedMinutes := timer.totalPausedMinutes + businessMinutesPaused
    dueAt :=
      if businessMinutesPaused > 0 then addBusinessMinutes calendar timer.dueAt businessMinutesPaused
      else timer.dueAt }

def resumeTimers (calendars : Nat → Option BusinessHoursCalendar) (ticketId : Nat) (now : Int)
    (timers : Table PausableTimerRow) : Table PausableTimerRow :=
  timers.update
    (fun timer => timer.ticketId == ticketId && timer.paused && timer.completedAt.isNone &&
      timer.stoppedAt.isNone)
    ⟨fun timer => resumed (loadCalendar calendars timer) now timer, fun _ => rfl⟩

/-- A pause from one whole minute to another. -/
structure Pause where
  pausedAt : Int
  resumedAt : Int
  ordered : pausedAt ≤ resumedAt
  pausedAt_aligned : msPerMinute ∣ pausedAt
  resumedAt_aligned : msPerMinute ∣ resumedAt

def pauseAndResume (calendars : Nat → Option BusinessHoursCalendar) (ticketId : Nat)
    (timers : Table PausableTimerRow) (pause : Pause) : Table PausableTimerRow :=
  resumeTimers calendars ticketId pause.resumedAt (pauseTimers ticketId pause.pausedAt timers)

/-! ## Both loops in open minutes -/

section

variable {calendar : Option BusinessHoursCalendar} {t u : Int} {minutes : Nat}

theorem openMinutes_none : openMinutes none t u = (u / msPerMinute - t / msPerMinute).toNat := by
  have hall := @counted_eq (isOpen none) _ (t / msPerMinute) (u / msPerMinute) (t / msPerMinute)
    (u / msPerMinute) fun k hk hlt => iff_of_true trivial ⟨hk, hlt⟩
  rw [Int.min_self, Int.max_self] at hall
  exact hall

def CountsWhole (calendar : Option BusinessHoursCalendar) (t u : Int) : Prop :=
  match calendar with
  | none => True
  | some calendar => openMinutes (some calendar) (dayAfter calendar t maxIterations) u = 0

def TakesWhole (calendar : Option BusinessHoursCalendar) (t : Int) (minutes : Nat) : Prop :=
  match calendar with
  | none => True
  | some calendar => FitsCap calendar t minutes

theorem businessMinutesBetween_le (ht : msPerMinute ∣ t) (hu : msPerMinute ∣ u) :
    businessMinutesBetween calendar t u ≤ openMinutes calendar t u ∧
      (businessMinutesBetween calendar t u = openMinutes calendar t u ↔
        CountsWhole calendar t u) := by
  cases calendar with
  | none =>
    have heq : businessMinutesBetween none t u = openMinutes none t u := by
      rw [openMinutes_none]
      unfold businessMinutesBetween
      split
      · unfold msPerMinute
        omega
      · unfold msPerMinute at ht hu ⊢
        dsimp only
        omega
    exact ⟨Nat.le_of_eq heq, iff_of_true heq trivial⟩
  | some calendar =>
    rw [show CountsWhole (some calendar) t u =
      (openMinutes (some calendar) (dayAfter calendar t maxIterations) u = 0) from rfl]
    have hstart : t ≤ dayAfter calendar t maxIterations := by
      have hnext := lt_startOfNextDay calendar t
      have hreach := @startOfNextDay_le_dayAfter calendar 399 t
      exact Int.le_trans (Int.le_of_lt hnext) hreach
    rw [businessMinutesBetween_some, betweenLoop_eq ht hu, Nat.zero_add]
    rcases Int.le_total u (dayAfter calendar t maxIterations) with hle | hle
    · rw [Int.min_eq_left hle, openMinutes_of_le hle]
      exact ⟨Nat.le_refl _, iff_of_true rfl rfl⟩
    · have hsplit := @openMinutes_add _ _ _ (some calendar) hstart hle
      rw [Int.min_eq_right hle]
      omega

theorem openMinutes_addBusinessMinutes (ht : msPerMinute ∣ t) :
    t ≤ addBusinessMinutes calendar t minutes ∧
      msPerMinute ∣ addBusinessMinutes calendar t minutes ∧
      openMinutes calendar t (addBusinessMinutes calendar t minutes) ≤ minutes ∧
      (openMinutes calendar t (addBusinessMinutes calendar t minutes) = minutes ↔
        TakesWhole calendar t minutes) := by
  cases calendar with
  | none =>
    have heq : openMinutes none t (addBusinessMinutes none t minutes) = minutes := by
      rw [openMinutes_none]
      unfold addBusinessMinutes msPerMinute
      dsimp only
      omega
    refine ⟨?_, ?_, Nat.le_of_eq heq, iff_of_true heq trivial⟩
    · unfold addBusinessMinutes msPerMinute
      dsimp only
      omega
    · exact Int.dvd_add ht (Int.dvd_mul_right _ _)
  | some calendar =>
    rw [show TakesWhole (some calendar) t minutes = Fits calendar maxIterations t minutes from rfl,
      addBusinessMinutes_some, openMinutes_addLoop ht, ← addLoop_done_iff]
    have hrest := @remaining_le calendar t maxIterations minutes
    exact ⟨le_addLoop, addLoop_aligned ht, by omega, by omega⟩

theorem openMinutes_shift_iff {pausedAt resumedAt due due' : Int} (hpause : pausedAt ≤ resumedAt)
    (hdue : due ≤ due')
    (hshift : openMinutes calendar due due' ≤ openMinutes calendar pausedAt resumedAt) :
    openMinutes calendar resumedAt due' = openMinutes calendar pausedAt due ↔
      openMinutes calendar pausedAt due = 0 ∨
        openMinutes calendar due due' = openMinutes calendar pausedAt resumedAt :=
  shift_iff (Int.ediv_le_ediv (by decide) hpause) (Int.ediv_le_ediv (by decide) hdue) hshift

end

/-! ## One pause -/

def KeepsBudget (calendar : Option BusinessHoursCalendar) (pause : Pause)
    (before after : PausableTimerRow) : Prop :=
  openMinutes calendar pause.resumedAt after.dueAt =
    openMinutes calendar pause.pausedAt before.dueAt

/-- Neither loop ends at its cap with minutes of the pause to go. Where nothing is left of the
timer, the due time need not move by all of them. -/
def WithinCaps (calendar : Option BusinessHoursCalendar) (timer : PausableTimerRow)
    (pause : Pause) : Prop :=
  CountsWhole calendar pause.pausedAt pause.resumedAt ∧
    (openMinutes calendar pause.pausedAt timer.dueAt = 0 ∨
      TakesWhole calendar timer.dueAt (openMinutes calendar pause.pausedAt pause.resumedAt))

def afterPause (calendars : Nat → Option BusinessHoursCalendar) (timer : PausableTimerRow)
    (pause : Pause) : PausableTimerRow :=
  resumed (loadCalendar calendars timer) pause.resumedAt
    { timer with paused := true, pausedAt := some pause.pausedAt }

section

variable {calendars : Nat → Option BusinessHoursCalendar} {timer : PausableTimerRow}
  {pause : Pause}

theorem afterPause_dueAt : (afterPause calendars timer pause).dueAt =
    addBusinessMinutes (loadCalendar calendars timer) timer.dueAt
      (businessMinutesBetween (loadCalendar calendars timer) pause.pausedAt pause.resumedAt) := by
  unfold afterPause
  generalize loadCalendar calendars timer = calendar
  show (if businessMinutesBetween calendar pause.pausedAt pause.resumedAt > 0 then _ else _) = _
  split
  · rfl
  · rename_i hnone
    rw [show businessMinutesBetween calendar pause.pausedAt pause.resumedAt = 0 by omega]
    cases calendar with
    | none => exact (Int.add_zero _).symm
    | some calendar => rfl

theorem afterPause_running (h : timer.running = true) :
    (afterPause calendars timer pause).running = true := by
  unfold SlaTimerRow.running at h ⊢
  rw [Bool.and_eq_true, Bool.and_eq_true] at h ⊢
  exact ⟨⟨rfl, h.1.2⟩, h.2⟩

theorem afterPause_aligned (h : msPerMinute ∣ timer.dueAt) :
    msPerMinute ∣ (afterPause calendars timer pause).dueAt := by
  rw [afterPause_dueAt]
  exact (openMinutes_addBusinessMinutes h).2.1

theorem resumed_iff (hdue : msPerMinute ∣ timer.dueAt) :
    KeepsBudget (loadCalendar calendars timer) pause timer (afterPause calendars timer pause) ∧
        businessMinutesBetween (loadCalendar calendars timer) pause.pausedAt pause.resumedAt =
          openMinutes (loadCalendar calendars timer) pause.pausedAt pause.resumedAt ↔
      WithinCaps (loadCalendar calendars timer) timer pause := by
  unfold KeepsBudget WithinCaps
  rw [afterPause_dueAt]
  generalize loadCalendar calendars timer = calendar
  rw [and_comm, (businessMinutesBetween_le pause.pausedAt_aligned pause.resumedAt_aligned).2]
  refine and_congr_right fun hcounts => ?_
  rw [(businessMinutesBetween_le pause.pausedAt_aligned pause.resumedAt_aligned).2.mpr hcounts]
  obtain ⟨hle, _, hmoved, hall⟩ := @openMinutes_addBusinessMinutes calendar _
    (openMinutes calendar pause.pausedAt pause.resumedAt) hdue
  rw [openMinutes_shift_iff pause.ordered hle hmoved, hall]

end

/-! ## Runs of pauses -/

section

variable {calendars : Nat → Option BusinessHoursCalendar} {ticketId timerId : Nat}
  {timers : Table PausableTimerRow} {timer : PausableTimerRow} {pauses : List Pause}

theorem get?_pauseAndResume {pause : Pause} (hget : timers.get? timerId = some timer)
    (hticket : timer.ticketId = ticketId) (hrunning : timer.running = true) :
    (pauseAndResume calendars ticketId timers pause).get? timerId =
      some (afterPause calendars timer pause) := by
  unfold SlaTimerRow.running at hrunning
  rw [Bool.and_eq_true, Bool.and_eq_true, Bool.not_eq_true'] at hrunning
  obtain ⟨⟨hpaused, hcompleted⟩, hstopped⟩ := hrunning
  have hpause : (pauseTimers ticketId pause.pausedAt timers).get? timerId =
      some { timer with paused := true, pausedAt := some pause.pausedAt } := by
    unfold pauseTimers
    rw [Table.get?_update, hget, Option.map_some, Table.updated_of_true]
    simp [hticket, hpaused, hcompleted, hstopped]
  unfold pauseAndResume resumeTimers
  rw [Table.get?_update, hpause, Option.map_some, Table.updated_of_true]
  · rfl
  · simp [hticket, hcompleted, hstopped]

theorem get?_run (hget : timers.get? timerId = some timer) (hticket : timer.ticketId = ticketId)
    (hrunning : timer.running = true) :
    (run (pauseAndResume calendars ticketId) timers pauses).get? timerId =
      some (run (afterPause calendars) timer pauses) := by
  induction pauses generalizing timers timer with
  | nil => exact hget
  | cons pause pauses ih =>
    exact ih (get?_pauseAndResume hget hticket hrunning) hticket (afterPause_running hrunning)

/-- What `resumeTimers` records of the pauses. -/
def recordedMinutes (calendar : Option BusinessHoursCalendar) (pauses : List Pause) : Nat :=
  (pauses.map fun p => businessMinutesBetween calendar p.pausedAt p.resumedAt).sum

def pausedMinutes (calendar : Option BusinessHoursCalendar) (pauses : List Pause) : Nat :=
  (pauses.map fun p => openMinutes calendar p.pausedAt p.resumedAt).sum

theorem run_total : (run (afterPause calendars) timer pauses).totalPausedMinutes =
    timer.totalPausedMinutes + recordedMinutes (loadCalendar calendars timer) pauses := by
  induction pauses generalizing timer with
  | nil => rfl
  | cons pause pauses ih =>
    rw [run_cons, ih]
    exact Nat.add_assoc _ _ _

theorem recordedMinutes_le {calendar : Option BusinessHoursCalendar} (pauses : List Pause) :
    recordedMinutes calendar pauses ≤ pausedMinutes calendar pauses := by
  induction pauses with
  | nil => exact Nat.le_refl _
  | cons pause pauses ih =>
    exact Nat.add_le_add
      (businessMinutesBetween_le pause.pausedAt_aligned pause.resumedAt_aligned).1 ih

theorem afterPauses_iff (hdue : msPerMinute ∣ timer.dueAt) :
    Guarded (afterPause calendars)
          (fun t p => KeepsBudget (loadCalendar calendars t) p t (afterPause calendars t p))
          timer pauses ∧
        recordedMinutes (loadCalendar calendars timer) pauses =
          pausedMinutes (loadCalendar calendars timer) pauses ↔
      Guarded (afterPause calendars) (fun t p => WithinCaps (loadCalendar calendars t) t p) timer
        pauses := by
  induction pauses generalizing timer with
  | nil => exact iff_of_true ⟨trivial, rfl⟩ trivial
  | cons pause pauses ih =>
    have hone := (@businessMinutesBetween_le (loadCalendar calendars timer) _ _
      pause.pausedAt_aligned pause.resumedAt_aligned).1
    have hrest := @recordedMinutes_le (loadCalendar calendars timer) pauses
    -- Nothing is recorded twice, so a sum that is whole has only whole parts.
    have hsum : recordedMinutes (loadCalendar calendars timer) (pause :: pauses) =
          pausedMinutes (loadCalendar calendars timer) (pause :: pauses) ↔
        businessMinutesBetween (loadCalendar calendars timer) pause.pausedAt pause.resumedAt =
            openMinutes (loadCalendar calendars timer) pause.pausedAt pause.resumedAt ∧
          recordedMinutes (loadCalendar calendars timer) pauses =
            pausedMinutes (loadCalendar calendars timer) pauses := by
      show businessMinutesBetween (loadCalendar calendars timer) pause.pausedAt
            pause.resumedAt + recordedMinutes (loadCalendar calendars timer) pauses =
          openMinutes (loadCalendar calendars timer) pause.pausedAt pause.resumedAt +
            pausedMinutes (loadCalendar calendars timer) pauses ↔ _
      omega
    have hcalendar : loadCalendar calendars (afterPause calendars timer pause) =
        loadCalendar calendars timer := rfl
    have htail := @ih (afterPause calendars timer pause) (afterPause_aligned hdue)
    rw [hcalendar] at htail
    rw [hsum]
    unfold Guarded
    rw [← resumed_iff hdue, ← htail]
    exact and_and_and_comm

/-- Every resume leaves as much of the timer as its pause found, and the minutes recorded are
those of the pauses. -/
structure Conserves (calendars : Nat → Option BusinessHoursCalendar) (ticketId timerId : Nat)
    (timers : Table PausableTimerRow) (pauses : List Pause) : Prop where
  budget : ∀ pre pause post, pauses = pre ++ pause :: post → ∃ before after,
    (run (pauseAndResume calendars ticketId) timers pre).get? timerId = some before ∧
      (run (pauseAndResume calendars ticketId) timers (pre ++ [pause])).get? timerId =
        some after ∧
      KeepsBudget (loadCalendar calendars before) pause before after
  total : ∃ before after, timers.get? timerId = some before ∧
    (run (pauseAndResume calendars ticketId) timers pauses).get? timerId = some after ∧
    after.totalPausedMinutes =
      before.totalPausedMinutes + pausedMinutes (loadCalendar calendars before) pauses

def RunWithinCaps (calendars : Nat → Option BusinessHoursCalendar) (ticketId timerId : Nat)
    (timers : Table PausableTimerRow) (pauses : List Pause) : Prop :=
  ∀ pre pause post, pauses = pre ++ pause :: post → ∃ before,
    (run (pauseAndResume calendars ticketId) timers pre).get? timerId = some before ∧
      WithinCaps (loadCalendar calendars before) before pause

theorem forall_before_iff {P : PausableTimerRow → Pause → Prop}
    (hget : timers.get? timerId = some timer) (hticket : timer.ticketId = ticketId)
    (hrunning : timer.running = true) :
    (∀ pre pause post, pauses = pre ++ pause :: post → ∃ before,
        (run (pauseAndResume calendars ticketId) timers pre).get? timerId = some before ∧
          P before pause) ↔
      Guarded (afterPause calendars) P timer pauses := by
  rw [guarded_iff]
  refine forall₄_congr fun pre pause post _ => ?_
  rw [get?_run hget hticket hrunning]
  exact ⟨fun ⟨before, hbefore, h⟩ => Option.some.inj hbefore ▸ h, fun h => ⟨_, rfl, h⟩⟩

end

/-! ## A pause over a weekend, and one of a year -/

/-- A timer that started on Friday, 17 April 2026, at 12:00 and is due at 17:00. -/
def fridayTimer : PausableTimerRow where
  id := 1
  ticketId := 1
  slaPolicyId := 1
  timerType := .resolution
  startedAt := 1776427200000
  dueAt := 1776445200000
  businessHoursCalendarId := some 1

/-- From Friday at 16:00 to Monday at 09:00. -/
def weekendPause : Pause where
  pausedAt := 1776441600000
  resumedAt := 1776675600000
  ordered := by decide
  pausedAt_aligned := by decide
  resumedAt_aligned := by decide

/-- From Friday at 16:00 to the Friday 52 weeks later. -/
def yearPause : Pause where
  pausedAt := 1776441600000
  resumedAt := 1807891200000
  ordered := by decide
  pausedAt_aligned := by decide
  resumedAt_aligned := by decide

end Prequest.Sla
