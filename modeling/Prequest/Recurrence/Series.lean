import Prequest.Lib.Table

/-!
# Recurrence series

A row of `recurrence_series` holds the rule of a recurring booking. The rule says
on which days the booking repeats; the columns of the row bound how far.
-/

namespace Prequest.Recurrence

open Prequest.Lib

inductive Frequency where
  | daily
  | weekly
  | monthly
  deriving DecidableEq, Repr

/-- The values of `by_day`, with `DAY_MAP` as the order. -/
inductive Weekday where
  | su
  | mo
  | tu
  | we
  | th
  | fr
  | sa
  deriving DecidableEq, Repr

/-- `RecurrenceRule`. Times are in milliseconds. -/
structure RecurrenceRule where
  frequency : Frequency
  interval : Int := 1
  byDay : List Weekday := []
  byMonthDay : Option Int := none
  count : Option Nat := none
  untilAt : Option Int := none
  deriving DecidableEq, Repr

/-- A row of `recurrence_series`. -/
structure SeriesRow where
  id : Nat
  recurrenceRule : RecurrenceRule
  seriesStartAt : Int
  seriesEndAt : Option Int := none
  maxOccurrences : Nat := 365
  holidayCalendarId : Option Nat := none
  materializedThrough : Int
  parentBookingId : Option Nat := none
  deriving DecidableEq, Repr

instance : Keyed SeriesRow Nat where
  key := SeriesRow.id

end Prequest.Recurrence
