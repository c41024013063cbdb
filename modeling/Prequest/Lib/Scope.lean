import Mathlib.Data.List.Basic

/-!
# Scopes with two axes

A scope restricts two attributes of a record, each by a list of values. An empty
list does not restrict. A record without a value for the first attribute passes
only a scope that does not restrict it; one without a value for the second
attribute passes every list.

* `Scope.Covers`: the record is in the scope.
* `Scope.Covers.mono`: a scope with longer lists covers more.
-/

namespace Prequest.Lib

variable {α β : Type*}

/-- A restriction of two attributes. -/
structure Scope (α β : Type*) where
  domains : List α
  locations : List β
  deriving DecidableEq, Repr

namespace Scope

/-- The scope covers a record with these attributes. -/
def Covers (s : Scope α β) (domain : Option α) (location : Option β) : Prop :=
  (s.domains = [] ∨ ∃ d ∈ s.domains, domain = some d) ∧
    (s.locations = [] ∨ location = none ∨ ∃ l ∈ s.locations, location = some l)

instance [DecidableEq α] [DecidableEq β] (s : Scope α β) (domain : Option α)
    (location : Option β) : Decidable (s.Covers domain location) := by
  unfold Covers
  infer_instance

theorem Covers.mono {s t : Scope α β} {domain domain' : Option α} {location : Option β}
    (h : s.Covers domain location) (hdomains : s.domains = t.domains)
    (hdomain : ∀ d, domain = some d → domain' = some d) (hlocations : s.locations ⊆ t.locations)
    (hempty : s.locations = [] → t.locations = []) : t.Covers domain' location := by
  obtain ⟨hd, hl⟩ := h
  constructor
  · rw [← hdomains]
    apply hd.imp_right
    rintro ⟨d, hmem, hsome⟩
    exact ⟨d, hmem, hdomain d hsome⟩
  · rcases hl with hnil | hnone | ⟨l, hmem, hsome⟩
    · exact .inl (hempty hnil)
    · exact .inr (.inl hnone)
    · exact .inr (.inr ⟨l, hlocations hmem, hsome⟩)

end Scope

end Prequest.Lib
