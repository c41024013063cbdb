import Prequest.Lib.Table
import Mathlib.Data.Set.Pairwise.Lattice
import Mathlib.Order.CompletePartialOrder

/-!
# Exclusion constraints

A table has an exclusion constraint when no two of its rows conflict. An update
that gives rows less than they had keeps it, and so does a new row that
conflicts with no other.

* `Excludes.update`, `Excludes.append`: the two rules.
* `Excludes.pairwiseDisjoint`: rows that claim sets, and conflict where these meet.
-/

namespace Prequest.Lib.Table

universe u v

variable {ρ : Type u} {κ : Type v} [Keyed ρ κ] {conflict : ρ → ρ → Prop} {t t' : Table ρ}

/-- No two rows conflict. -/
def Excludes (conflict : ρ → ρ → Prop) (t : Table ρ) : Prop :=
  {r | r ∈ t.rows}.Pairwise fun r s => ¬conflict r s

theorem excludes_iff : t.Excludes conflict ↔
    ∀ r ∈ t.rows, ∀ s ∈ t.rows, key r ≠ key s → ¬conflict r s := by
  constructor
  · intro h r hr s hs hne
    exact h hr hs fun heq => hne (congrArg key heq)
  · intro h r hr s hs hne
    exact h r hr s hs fun heq => hne (t.eq_of_key_eq hr hs heq)

/-- `less r' r`: the row `r'` conflicts with no more than `r`. -/
theorem Excludes.update {less : ρ → ρ → Prop}
    (mono : ∀ {r r' s s'}, less r' r → less s' s → conflict r' s' → conflict r s)
    (refl : ∀ r, less r r) (h : t.Excludes conflict) {p : ρ → Bool} {f : Assignment ρ}
    (hless : ∀ r ∈ t.rows, p r = true → less (f.apply r) r) :
    (t.update p f).Excludes conflict := by
  intro r' hr' s' hs' hne hconflict
  have horigin : ∀ r' ∈ (t.update p f).rows, ∃ r ∈ t.rows, key r = key r' ∧ less r' r := by
    intro r' hr'
    obtain ⟨r, hr, ⟨hp, rfl⟩ | ⟨_, rfl⟩⟩ := mem_update_iff.mp hr'
    · exact ⟨r, hr, (f.key_apply r).symm, hless r hr hp⟩
    · exact ⟨r', hr, rfl, refl r'⟩
  obtain ⟨r, hr, hkr, hrless⟩ := horigin r' hr'
  obtain ⟨s, hs, hks, hsless⟩ := horigin s' hs'
  refine h hr hs ?_ (mono hrless hsless hconflict)
  rintro rfl
  exact hne ((t.update p f).eq_of_key_eq hr' hs' (hkr.symm.trans hks))

theorem Excludes.append (symm : ∀ {r s}, conflict r s → conflict s r) (h : t.Excludes conflict)
    {r : ρ} (hrows : t'.rows = t.rows ++ [r]) (hfree : ∀ s ∈ t.rows, ¬conflict s r) :
    t'.Excludes conflict := by
  have hsplit : ∀ a ∈ t'.rows, a ∈ t.rows ∨ a = r := by
    intro a ha
    rw [hrows, List.mem_append, List.mem_singleton] at ha
    exact ha
  intro a ha b hb hne
  rcases hsplit a ha with ha | rfl
  · rcases hsplit b hb with hb | rfl
    · exact h ha hb hne
    · exact hfree a ha
  · rcases hsplit b hb with hb | rfl
    · exact fun hconflict => hfree b hb (symm hconflict)
    · exact absurd rfl hne

theorem Excludes.pairwiseDisjoint {P : Type*} {claim : ρ → Set P} (h : t.Excludes conflict)
    (hclaim : ∀ r s, ¬Disjoint (claim r) (claim s) → conflict r s) :
    {r | r ∈ t.rows}.PairwiseDisjoint claim := by
  intro r hr s hs hne
  by_contra hmeet
  exact h hr hs hne (hclaim r s hmeet)

end Prequest.Lib.Table
