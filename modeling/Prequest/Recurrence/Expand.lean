import Prequest.Lib.Date
import Prequest.Recurrence.Series
import Mathlib.Data.List.Sort

/-!
# Expanding a rule

`expand` lists the occurrences of a rule from its anchor on, numbered from 0, up to the end of a
window. A day of the holiday calendar is left out and takes no number. The source's `expand` may
also be called without a window, which only the preview does; the model is the one with a window.

The loops move a `Date`. Once that has left the range of dates it is invalid, and an invalid date is
after no end: it passes every window. Asking whether it is a holiday throws, without holidays it is
listed, and the loop over months passes it over and goes on.

* `expand_add`: an expansion that has returned its list returns it with more rounds too.
* `monthly_none`: months never come to an end from an invalid date.
-/

namespace Prequest.Recurrence

open Prequest.Lib Prequest.Lib.Calendar

/-- The arguments of `expand`. Holidays are days of the years 0 to 9999, which are those that a date
of ten characters names. -/
structure ExpandArgs where
  rule : RecurrenceRule
  anchorStart : Int
  durationMinutes : Int
  materializedThrough : Int
  holidayDates : Option (List Int) := none
  maxOccurrences : Nat := 365

structure Occurrence where
  startAt : JsDate
  endAt : JsDate
  index : Nat
  deriving DecidableEq, Repr

/-- How far a loop has come: it has returned its list, has thrown, or is still running. -/
inductive Expansion where
  | returned (out : List Occurrence)
  | threw
  | running
  deriving DecidableEq, Repr

/-- The loop goes on with an occurrence put out. -/
def Expansion.cons (o : Occurrence) : Expansion → Expansion
  | .returned out => .returned (o :: out)
  | .threw => .threw
  | .running => .running

namespace ExpandArgs

variable (args : ExpandArgs)

/-- `Math.min(horizonByCount, maxOccurrences)`. -/
def limit : Nat :=
  match args.rule.count with
  | some count => min count args.maxOccurrences
  | none => args.maxOccurrences

def interval : Int := max args.rule.interval 1

def durationMs : Int := args.durationMinutes * 60 * 1000

def passes (d : Int) : Bool :=
  (match args.rule.untilAt with
    | some until' => decide (d ≤ until')
    | none => true) &&
  decide (d ≤ args.materializedThrough)

/-- `passes`, of a date. An invalid one is not after the ends. -/
def passesDate (d : JsDate) : Bool := d.all args.passes

def isHoliday (d : Int) : Bool := args.holidayDates.any fun days => days.contains (day d)

/-- `isHoliday`, of a date: `toISOString` throws for an invalid one. -/
def isHolidayDate (d : JsDate) : Option Bool :=
  match args.holidayDates with
  | none => some false
  | some days => d.map fun t => days.contains (day t)

def occurrence (start : JsDate) (index : Nat) : Occurrence :=
  { startAt := start, endAt := moved (· + args.durationMs) start, index := index }

end ExpandArgs

/-- `DAY_MAP`. -/
def Weekday.dow : Weekday → Int
  | .su => 0
  | .mo => 1
  | .tu => 2
  | .we => 3
  | .th => 4
  | .fr => 5
  | .sa => 6

/-! ## The loops -/

/-- The occurrences from `cursor` on, the next one with number `index`. -/
def daily (args : ExpandArgs) : Nat → JsDate → Nat → Expansion
  | 0, _, _ => .running
  | fuel + 1, cursor, index =>
      if args.passesDate cursor && index < args.limit then
        let next := moved (fun t => setUTCDate t (getUTCDate t + args.interval)) cursor
        match args.isHolidayDate cursor with
        | none => .threw
        | some true => daily args fuel next index
        | some false => (daily args fuel next (index + 1)).cons (args.occurrence cursor index)
      else .returned []

/-- `byDayDows`, sorted. -/
def byDayDows (args : ExpandArgs) : List Int :=
  match args.rule.byDay with
  | [] => [weekDay args.anchorStart]
  | days => (days.map Weekday.dow).insertionSort (· ≤ ·)

/-- `startOfWeek`. -/
def startOfWeekDate (d : JsDate) : JsDate :=
  moved (setTimeOfDay · 0) (moved (fun t => setUTCDate t (getUTCDate t - weekDay t)) d)

/-- `dayDate`. -/
def dateOfDay (args : ExpandArgs) (weekStart : JsDate) (dow : Int) : JsDate :=
  moved (setTimeOfDay · args.anchorStart)
    (moved (fun t => setUTCDate t (getUTCDate t + dow)) weekStart)

def week (args : ExpandArgs) (weekStart : JsDate) (nextWeek : Nat → Expansion) :
    List Int → Nat → Expansion
  | [], index => nextWeek index
  | dow :: dows, index =>
      let d := dateOfDay args weekStart dow
      if d.any (· < args.anchorStart) then week args weekStart nextWeek dows index
      else if !args.passesDate d then .returned []
      else
        match args.isHolidayDate d with
        | none => .threw
        | some true =>
            if args.limit ≤ index then .returned [] else week args weekStart nextWeek dows index
        | some false =>
            (if args.limit ≤ index + 1 then .returned []
              else week args weekStart nextWeek dows (index + 1)).cons (args.occurrence d index)

def weekly (args : ExpandArgs) : Nat → JsDate → Nat → Expansion
  | 0, _, _ => .running
  | fuel + 1, weekStart, index =>
      if index < args.limit then
        week args weekStart
          (weekly args fuel
            (moved (fun t => setUTCDate t (getUTCDate t + 7 * args.interval)) weekStart))
          (byDayDows args) index
      else .returned []

/-- The candidate of the month of `cursor`. -/
def candidateDate (args : ExpandArgs) (byMonthDay : Int) (cursor : JsDate) : JsDate :=
  moved (setTimeOfDay · args.anchorStart) (moved (setUTCDate · byMonthDay) cursor)

/-- The candidate is of its month (or of one of the same name), and in the window. -/
def candidatePasses (args : ExpandArgs) (byMonthDay : Int) (cursor : JsDate) : Bool :=
  match candidateDate args byMonthDay cursor, cursor with
  | some d, some t =>
      monthOf (day d) % 12 == monthOf (day t) % 12 && decide (args.anchorStart ≤ d) &&
        args.passes d
  | _, _ => false

def monthly (args : ExpandArgs) (byMonthDay : Int) : Nat → JsDate → Nat → Expansion
  | 0, _, _ => .running
  | fuel + 1, cursor, index =>
      if index < args.limit then
        let next := moved (addUTCMonths · args.interval) cursor
        let rest := fun index =>
          if args.passesDate next then monthly args byMonthDay fuel next index else .returned []
        if candidatePasses args byMonthDay cursor then
          let d := candidateDate args byMonthDay cursor
          match args.isHolidayDate d with
          | none => .threw
          | some true => rest index
          | some false => (rest (index + 1)).cons (args.occurrence d index)
        else rest index
      else .returned []

section

variable (args : ExpandArgs)

def dayOfRule : Int := args.rule.byMonthDay.getD (getUTCDate args.anchorStart)

/-- `RecurrenceService.expand`, as far as it has come in `fuel` rounds of its loop. -/
def expand (fuel : Nat) : Expansion :=
  let cursor := timeClip args.anchorStart
  match args.rule.frequency with
  | .daily => daily args fuel cursor 0
  | .weekly => weekly args fuel (startOfWeekDate cursor) 0
  | .monthly => monthly args (dayOfRule args) fuel cursor 0

/-- The call returns `out`. -/
def Returns (out : List Occurrence) : Prop := ∃ fuel, expand args fuel = .returned out

end

section

variable (args : ExpandArgs) (fuel : Nat)

theorem expand_daily (h : args.rule.frequency = .daily) :
    expand args fuel = daily args fuel (timeClip args.anchorStart) 0 := by
  unfold expand
  rw [h]

theorem expand_weekly (h : args.rule.frequency = .weekly) :
    expand args fuel = weekly args fuel (startOfWeekDate (timeClip args.anchorStart)) 0 := by
  unfold expand
  rw [h]

theorem expand_monthly (h : args.rule.frequency = .monthly) :
    expand args fuel = monthly args (dayOfRule args) fuel (timeClip args.anchorStart) 0 := by
  unfold expand
  rw [h]

end

/-! ## Dates -/

section

variable {args : ExpandArgs} {d t : Int}

@[simp] theorem passesDate_none : args.passesDate none = true := rfl

@[simp] theorem passesDate_some : args.passesDate (some t) = args.passes t := rfl

theorem isHolidayDate_some : args.isHolidayDate (some t) = some (args.isHoliday t) := by
  unfold ExpandArgs.isHolidayDate ExpandArgs.isHoliday
  cases args.holidayDates <;> rfl

theorem isHolidayDate_none (args : ExpandArgs) :
    args.isHolidayDate none = none ∨ args.isHolidayDate none = some false := by
  unfold ExpandArgs.isHolidayDate
  cases args.holidayDates with
  | none => exact .inr rfl
  | some days => exact .inl rfl

theorem le_materializedThrough (h : args.passes d = true) : d ≤ args.materializedThrough := by
  simp only [ExpandArgs.passes, Bool.and_eq_true, decide_eq_true_eq] at h
  exact h.2

theorem one_le_interval (args : ExpandArgs) : 1 ≤ args.interval := le_max_right _ _

theorem msPerDay_mul_le {a b : Int} (h : a ≤ b) : msPerDay * a ≤ msPerDay * b :=
  Int.mul_le_mul_of_nonneg_left h (by decide)

theorem byDayDows_bounds {dow : Int} (h : dow ∈ byDayDows args) : 0 ≤ dow ∧ dow ≤ 6 := by
  unfold byDayDows at h
  split at h
  · rw [List.mem_singleton.mp h]
    unfold weekDay
    omega
  · rw [List.mem_insertionSort] at h
    obtain ⟨weekday, _, rfl⟩ := List.mem_map.mp h
    cases weekday <;> decide

theorem byDayDows_sorted : (byDayDows args).Pairwise (· ≤ ·) := by
  unfold byDayDows
  split
  · exact List.pairwise_singleton _ _
  · exact List.pairwise_insertionSort _ _

theorem byDayDows_ne_nil (args : ExpandArgs) : byDayDows args ≠ [] := by
  unfold byDayDows
  split
  · exact List.cons_ne_nil _ _
  · rename_i days hdays
    intro hnil
    have hlength := congrArg List.length hnil
    rw [List.length_insertionSort, List.length_map] at hlength
    exact hdays (List.length_eq_zero_iff.mp hlength)

end

/-! ## More rounds -/

theorem Expansion.cons_eq_returned {o : Occurrence} {e : Expansion} {out : List Occurrence} :
    e.cons o = .returned out ↔ ∃ rest, e = .returned rest ∧ out = o :: rest := by
  cases e with
  | returned rest => simp [Expansion.cons, eq_comm]
  | threw => simp [Expansion.cons]
  | running => simp [Expansion.cons]

theorem ite_returned {p : Prop} [Decidable p] {e e' f f' : Expansion} {out : List Occurrence}
    (he : e = .returned out → e' = .returned out) (hf : f = .returned out → f' = .returned out)
    (h : (if p then e else f) = .returned out) : (if p then e' else f') = .returned out := by
  split at h
  · rename_i hp
    rw [if_pos hp]
    exact he h
  · rename_i hp
    rw [if_neg hp]
    exact hf h

section

variable {args : ExpandArgs} {fuel index : Nat} {out : List Occurrence}

theorem daily_succ {cursor : JsDate} (h : daily args fuel cursor index = .returned out) :
    daily args (fuel + 1) cursor index = .returned out := by
  induction fuel generalizing cursor index out with
  | zero => cases h
  | succ fuel ih =>
    unfold daily at h ⊢
    split at h
    · rename_i hif
      rw [if_pos hif]
      simp only at h ⊢
      split at h
      · cases h
      · exact ih h
      · obtain ⟨rest, hrest, rfl⟩ := Expansion.cons_eq_returned.mp h
        rw [ih hrest]
        rfl
    · rename_i hif
      rw [if_neg hif]
      exact h

theorem week_succ {weekStart : JsDate} {nextWeek nextWeek' : Nat → Expansion}
    (hnext : ∀ i out, nextWeek i = .returned out → nextWeek' i = .returned out) {dows : List Int}
    (h : week args weekStart nextWeek dows index = .returned out) :
    week args weekStart nextWeek' dows index = .returned out := by
  induction dows generalizing index out with
  | nil => exact hnext index out h
  | cons dow dows ih =>
    unfold week at h ⊢
    simp only at h ⊢
    split at h
    · rename_i hbefore
      rw [if_pos hbefore]
      exact ih h
    rename_i hbefore
    rw [if_neg hbefore]
    split at h
    · rename_i hpasses
      rw [if_pos hpasses]
      exact h
    rename_i hpasses
    rw [if_neg hpasses]
    split at h
    · cases h
    · exact ite_returned id ih h
    · obtain ⟨rest, hrest, rfl⟩ := Expansion.cons_eq_returned.mp h
      exact Expansion.cons_eq_returned.mpr ⟨rest, ite_returned id ih hrest, rfl⟩

theorem weekly_succ {weekStart : JsDate} (h : weekly args fuel weekStart index = .returned out) :
    weekly args (fuel + 1) weekStart index = .returned out := by
  induction fuel generalizing weekStart index out with
  | zero => cases h
  | succ fuel ih =>
    unfold weekly at h ⊢
    split at h
    · rename_i hindex
      rw [if_pos hindex]
      exact week_succ (fun _ _ h => ih h) h
    · rename_i hindex
      rw [if_neg hindex]
      exact h

theorem monthly_succ {byMonthDay : Int} {cursor : JsDate}
    (h : monthly args byMonthDay fuel cursor index = .returned out) :
    monthly args byMonthDay (fuel + 1) cursor index = .returned out := by
  induction fuel generalizing cursor index out with
  | zero => cases h
  | succ fuel ih =>
    have hrest : ∀ (next : JsDate) i out,
        (if args.passesDate next then monthly args byMonthDay fuel next i else .returned []) =
            Expansion.returned out →
          (if args.passesDate next then monthly args byMonthDay (fuel + 1) next i
            else .returned []) = Expansion.returned out :=
      fun _ _ _ h => ite_returned ih id h
    unfold monthly at h ⊢
    split at h
    · rename_i hindex
      rw [if_pos hindex]
      simp only at h ⊢
      split at h
      · rename_i hcandidate
        rw [if_pos hcandidate]
        split at h
        · cases h
        · exact hrest _ _ _ h
        · obtain ⟨rest, hreturned, rfl⟩ := Expansion.cons_eq_returned.mp h
          exact Expansion.cons_eq_returned.mpr ⟨rest, hrest _ _ _ hreturned, rfl⟩
      · rename_i hcandidate
        rw [if_neg hcandidate]
        exact hrest _ _ _ h
    · rename_i hindex
      rw [if_neg hindex]
      exact h

theorem expand_succ (h : expand args fuel = .returned out) :
    expand args (fuel + 1) = .returned out := by
  cases hrule : args.rule.frequency with
  | daily =>
    rw [expand_daily _ _ hrule] at h ⊢
    exact daily_succ h
  | weekly =>
    rw [expand_weekly _ _ hrule] at h ⊢
    exact weekly_succ h
  | monthly =>
    rw [expand_monthly _ _ hrule] at h ⊢
    exact monthly_succ h

theorem expand_add (h : expand args fuel = .returned out) (more : Nat) :
    expand args (fuel + more) = .returned out := by
  induction more with
  | zero => exact h
  | succ more ih => exact expand_succ ih

theorem Returns.unique {out' : List Occurrence} (h : Returns args out) (h' : Returns args out') :
    out = out' := by
  obtain ⟨fuel, h⟩ := h
  obtain ⟨fuel', h'⟩ := h'
  have hlong := expand_add h fuel'
  rw [Nat.add_comm, expand_add h' fuel] at hlong
  exact (Expansion.returned.inj hlong).symm

/-- The loop over months does not end once its cursor is invalid. -/
theorem monthly_none {byMonthDay : Int} (fuel : Nat) (h : index < args.limit) :
    monthly args byMonthDay fuel none index = .running := by
  induction fuel with
  | zero => rfl
  | succ fuel ih =>
    unfold monthly
    rw [if_pos h]
    exact ih

end

end Prequest.Recurrence
