import Mathlib.Data.Int.Order.Basic

/-!
# The window and the lease of the end-of-day sweep

A building is selected while its local hour is 18. The lease that makes the sweep
once-only is named after the UTC date of the clock at that moment.
-/

namespace Prequest.Visitors

/-- The UTC offset of a building over time, in seconds. -/
abbrev Offsets := Int → Int

section

variable (off : Offsets) (t : Int)

/-- `now() at time zone timezone`. -/
def localTime : Int := t + off t

def localDate : Int := localTime off t / 86400

/-- `extract(hour from …)`. -/
def localHour : Int := localTime off t % 86400 / 3600

end

/-- `new Date().toISOString().slice(0, 10)`. -/
def sweepDate (t : Int) : Int := t / 86400

/-- A tick: when the database selects the buildings, and when the worker gets to this one. -/
structure Tick where
  selectedAt : Int
  leasedAt : Int
  deriving DecidableEq, Repr

def Tick.inWindow (off : Offsets) (t : Tick) : Bool := localHour off t.selectedAt == 18

def Tick.date (off : Offsets) (t : Tick) : Int := localDate off t.selectedAt

/-- The date in `leaseKey`. -/
def Tick.leaseDate (t : Tick) : Int := sweepDate t.leasedAt

/-- The worker gets to the building at once. -/
def Tick.Prompt (t : Tick) : Prop := t.leasedAt = t.selectedAt

/-- Of the ticks that may occur, two in a window share a lease exactly when they share a local
date. -/
def Aligned (off : Offsets) (T : Tick → Prop) : Prop :=
  ∀ a b, T a → T b → a.inWindow off = true → b.inWindow off = true →
    (a.leaseDate = b.leaseDate ↔ a.date off = b.date off)

end Prequest.Visitors
