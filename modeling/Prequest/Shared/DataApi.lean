import Mathlib.Data.List.TakeDrop

/-!
# Responses of the data API

The services read through PostgREST, which answers a query with at most
`max_rows` rows. A query that sets no range of its own gets the first of them,
and no sign that there are more.
-/

namespace Prequest.Shared

variable {α : Type} {rows : List α}

/-- `max_rows` of `config.toml`. -/
def maxRows : Nat := 1000

/-- The rows of a query that reach the service. -/
def page (rows : List α) : List α := rows.take maxRows

theorem page_sublist : List.Sublist (page rows) rows := List.take_sublist _ _

theorem mem_of_mem_page {a : α} (h : a ∈ page rows) : a ∈ rows := page_sublist.subset h

theorem page_eq_self_iff : page rows = rows ↔ rows.length ≤ maxRows := List.take_eq_self_iff _

end Prequest.Shared
