import Prequest.Cases.ParentChild

/-!
# Concurrent writes of cases and work orders

Two transactions can pass their guards on the same case: one has counted no open
work order, the other has found the case open, and neither sees the row that the
other is about to commit. Two transactions that settle the last two work orders
of a case each see the work order of the other open, so that neither of them
resolves the case. And a work order that moves to another case leaves behind a
case that nobody rolls up.

* `FamilyInv`: what holds in every state of a schedule of separate statements.
-/

namespace Prequest.Cases

open Prequest.Lib Prequest.Lib.ReadCommitted Prequest.Sla

/-! ## Families -/

def OpenUnder (db : CaseTables) (parent : String) : Prop :=
  ∃ c e, db.entities.get? c = some e ∧ e.IsChildOf parent ∧ e.IsOpen

/-- The case is resolved or closed. -/
def SettledIn (db : CaseTables) (parent : String) : Prop :=
  ∃ p, db.entities.get? parent = some p ∧ p.kind = .case ∧ ¬p.IsOpen

variable {db : CaseTables}

theorem noOrphan_iff : NoOrphan db ↔ ∀ parent, SettledIn db parent → ¬OpenUnder db parent := by
  constructor
  · rintro h parent ⟨p, hp, hkind, hsettled⟩ ⟨c, e, he, hchild, hopen⟩
    obtain ⟨hpmem, rfl⟩ := Table.get?_eq_some.mp hp
    exact h p hpmem hkind hsettled e (Table.get?_eq_some.mp he).1 hchild hopen
  · intro h p hp hkind hsettled c hc hchild hopen
    exact h p.id ⟨p, Table.get?_of_mem hp, hkind, hsettled⟩
      ⟨c.id, c, Table.get?_of_mem hc, hchild, hopen⟩

variable {parent : String}

theorem mem_childCategories {category : String} : category ∈ db.childCategories parent ↔
      ∃ c e, db.entities.get? c = some e ∧ e.IsChildOf parent ∧
        e.columns.statusCategory = category := by
  unfold CaseTables.childCategories
  rw [List.mem_map]
  constructor
  · rintro ⟨e, he, rfl⟩
    obtain ⟨hmem, hchild⟩ := List.mem_filter.mp he
    refine ⟨e.id, e, Table.get?_of_mem hmem, ?_, rfl⟩
    simpa [Entity.IsChildOf] using hchild
  · rintro ⟨c, e, he, hchild, rfl⟩
    refine ⟨e, List.mem_filter.mpr ⟨(Table.get?_eq_some.mp he).1, ?_⟩, rfl⟩
    simpa [Entity.IsChildOf] using hchild

theorem openChildren_eq_zero : db.openChildren parent = 0 ↔ ¬OpenUnder db parent := by
  unfold CaseTables.openChildren
  rw [List.countP_eq_zero]
  constructor
  · rintro h ⟨c, e, he, hchild, hopen⟩
    have hsettled := h _ (mem_childCategories.mpr ⟨c, e, he, hchild, rfl⟩)
    unfold Entity.IsOpen at hopen
    rw [hopen] at hsettled
    exact hsettled rfl
  · intro h category hcategory hopen
    obtain ⟨c, e, he, hchild, rfl⟩ := mem_childCategories.mp hcategory
    exact h ⟨c, e, he, hchild, by simpa [Entity.IsOpen] using hopen⟩

theorem checksParent_eq_some {old : Option Entity} {new : Entity}
    (h : checksParent old new = some parent) : new.parentTicketId = some parent := by
  unfold checksParent at h
  split_ifs at h
  cases old with
  | none => exact h
  | some o =>
    simp only at h
    split_ifs at h
    exact h

theorem open_of_unchecked {old : Option Entity} {new : Entity}
    (h : checksParent old new = none) (hchild : new.IsChildOf parent) (hopen : new.IsOpen) :
    ∃ o, old = some o ∧ o.parentTicketId = some parent ∧ o.IsOpen := by
  unfold checksParent at h
  rw [if_neg (by rw [hopen]; decide)] at h
  cases old with
  | none =>
    rw [hchild.2] at h
    cases h
  | some o =>
    simp only at h
    split_ifs at h with hsame
    · refine ⟨o, rfl, hsame.1.trans hchild.2, ?_⟩
      rcases hsame.2 with hcategory | hwas
      · unfold Entity.IsOpen
        rw [hcategory]
        exact hopen
      · exact hwas
    · rw [hchild.2] at h
      cases h

section Race

variable {ι : Type}

/-! ## What transactions have in hand -/

/-- The transaction runs. -/
def Running (w : CaseWorld ι) (i : ι) : Prop := (w.session i).phase = .running

section

variable (pc : CasePc)

/-- The row that a transaction has written last under an identifier. -/
def CasePc.row? (id : String) : Option Entity :=
  pc.written.find? fun e => decide (Keyed.key e = id)

/-- The transaction has written an open work order under the case, or is about to. -/
def Opens (parent : String) : Prop :=
  (∃ c e, pc.row? c = some e ∧ e.IsChildOf parent ∧ e.IsOpen) ∨
    ∃ old new, pc.point = .writeOrder old new ∧ new.IsChildOf parent ∧ new.IsOpen

/-- The transaction has settled the case, or is about to. -/
def Closes (parent : String) : Prop :=
  (∃ p, pc.row? parent = some p ∧ p.kind = .case ∧ ¬p.IsOpen) ∨
    ∃ next, pc.point = .writeCase next ∧ next.id = parent ∧ ¬next.IsOpen

/-- The transaction still has to roll the case up, or is about to settle it. -/
def Pending (parent : String) : Prop :=
  match pc.point with
  | .readSiblings q => q = parent
  | .rollParent q categories => q = parent ∧ ∀ category ∈ categories, isTerminal category = true
  | .rollRow q categories => q = parent ∧ ∀ category ∈ categories, isTerminal category = true
  | .countChildren next => next.id = parent
  | .closeGuard next => next.id = parent
  | .writeCase next => next.id = parent ∧ ¬next.IsOpen
  | _ => False

end

def Untouched (w : CaseWorld ι) (i : ι) (c : String) : Prop :=
  ∀ j, j ≠ i → Running w j → (w.session j).pc.row? c = none

/-- Whoever else has written the row still has to roll the case up. -/
def LeftAlone (w : CaseWorld ι) (i : ι) (parent c : String) : Prop :=
  ∀ j, j ≠ i → Running w j →
    (w.session j).pc.row? c = none ∨ Pending (w.session j).pc parent

/-- A re-parented open work order leaves another open one behind, or no work order at all. -/
def LeavesWell (w : CaseWorld ι) (i : ι) (old : Entity) : Prop :=
  ∀ parent, old.parentTicketId = some parent → old.IsOpen →
    (∃ c e, c ≠ old.id ∧ (w.view i).entities.get? c = some e ∧ e.IsChildOf parent ∧ e.IsOpen ∧
        LeftAlone w i parent c) ∨
      ∀ k, Running w k → ∀ c e, (w.view k).entities.get? c = some e → e.IsChildOf parent → c = old.id

/-- A re-parented settled work order comes to a case with another work order, or to a settled
case. -/
def ArrivesWell (w : CaseWorld ι) (i : ι) (old new : Entity) : Prop :=
  ∀ parent, new.parentTicketId = some parent → ¬new.IsOpen →
    old.columns.statusCategory = new.columns.statusCategory →
      (∃ c e, c ≠ old.id ∧ (w.view i).entities.get? c = some e ∧ e.IsChildOf parent ∧
          LeftAlone w i parent c) ∨
        ∀ k, Running w k → SettledIn (w.view k) parent

/-- The condition on the next statement of a transaction. -/
def SeparatePoint (w : CaseWorld ι) (i : ι) : Point → Prop
  -- nobody else has an open work order in hand for the case that is being settled
  | .closeGuard next =>
      ¬OpenUnder (w.view i) next.id →
        ∀ j, j ≠ i → Running w j → ¬Opens (w.session j).pc next.id
  -- nobody else is settling the case under which a work order is being opened
  | .parentGuard parent _ _ =>
      ¬SettledIn (w.view i) parent →
        ∀ j, j ≠ i → Running w j → ¬Closes (w.session j).pc parent
  -- a rollup that leaves the case open has seen an open work order that stays open, or that is
  -- settled by somebody whose rollup is still to come
  | .readSiblings parent =>
      OpenUnder (w.view i) parent →
        ∃ c e, (w.view i).entities.get? c = some e ∧ e.IsChildOf parent ∧ e.IsOpen ∧
          LeftAlone w i parent c
  | .writeOrder (some old) new =>
      old.parentTicketId ≠ new.parentTicketId → LeavesWell w i old ∧ ArrivesWell w i old new
  | _ => True

/-- The condition on a scheduled statement. -/
def Separate (w : CaseWorld ι) (i : ι) : Prop :=
  Running w i → SeparatePoint w i (w.session i).pc.point

/-! ## The invariant -/

/-- The row under an identifier once the running transactions of `S` have committed. -/
def Merged (w : CaseWorld ι) (S : ι → Prop) (id : String) (e : Entity) : Prop :=
  (∃ i, S i ∧ Running w i ∧ (w.session i).pc.row? id = some e) ∨
    (∀ i, S i → Running w i → (w.session i).pc.row? id = none) ∧
      w.rows.entities.get? id = some e

/-- The law of the rollup for one case. -/
def FamilyOk (R : String → Entity → Prop) (parent : String) : Prop :=
  ∀ p, R parent p → p.kind = .case → (∃ c e, R c e ∧ e.IsChildOf parent) →
    (∀ c e, R c e → e.IsChildOf parent → ¬e.IsOpen) → ¬p.IsOpen

/-- The transaction holds the row of the case that it is about to write. -/
structure HoldsCase (w : CaseWorld ι) (i : ι) (next : Entity) : Prop where
  kind : next.kind = .case
  seen : ∃ p, (w.view i).entities.get? next.id = some p ∧ p.kind = .case ∧
    (next.IsOpen → p.IsOpen)
  held : w.locks (.row next.id) = some i

structure HoldsOrder (w : CaseWorld ι) (i : ι) (old : Option Entity) (new : Entity) : Prop where
  kind : new.kind = .workOrder
  seen : ∀ o, old = some o → o.id = new.id ∧ o.kind = .workOrder ∧
    (w.view i).entities.get? o.id = some o ∧ w.locks (.row o.id) = some i

/-- What a transaction knows at a point. -/
def PointInv (w : CaseWorld ι) (i : ι) : Point → Prop
  | .countChildren next => HoldsCase w i next ∧ ¬next.IsOpen
  | .closeGuard next => HoldsCase w i next ∧ ¬next.IsOpen
  | .writeCase next => HoldsCase w i next
  | .advisory parent old new => HoldsOrder w i old new ∧ checksParent old new = some parent
  | .parentGuard parent old new => HoldsOrder w i old new ∧ checksParent old new = some parent
  | .writeOrder old new => HoldsOrder w i old new
  | _ => True

structure FamilyInv (w : CaseWorld ι) : Prop where
  writes : ∀ i, Running w i → (w.session i).writes = writtenOver (w.session i).pc.written
  locked : ∀ i, Running w i → ∀ id e, (w.session i).pc.row? id = some e →
    w.locks (.row id) = some i
  /-- A case that a transaction has written was there, and it has not been opened again. -/
  cases : ∀ i, Running w i → ∀ id p, (w.session i).pc.row? id = some p → p.kind = .case →
    ∃ q, w.rows.entities.get? id = some q ∧ q.kind = .case ∧ (p.IsOpen → q.IsOpen)
  points : ∀ i, Running w i → PointInv w i (w.session i).pc.point
  noOrphan : ∀ parent, SettledIn w.rows parent → ¬OpenUnder w.rows parent
  closes : ∀ i, Running w i → ∀ parent, Closes (w.session i).pc parent →
    ¬OpenUnder (w.view i) parent
  opens : ∀ i, Running w i → ∀ parent, Opens (w.session i).pc parent →
    ¬SettledIn (w.view i) parent
  apart : ∀ i j, i ≠ j → Running w i → Running w j → ∀ parent,
    Closes (w.session i).pc parent → ¬Opens (w.session j).pc parent
  rolled : ∀ (S : ι → Prop) (parent : String), FamilyOk (Merged w S) parent ∨
    ∃ i, S i ∧ Running w i ∧ Pending (w.session i).pc parent

section Views

variable {w : CaseWorld ι} {i j : ι}

theorem FamilyInv.get?_view (h : FamilyInv w) (hi : Running w i) (id : String) :
    (w.view i).entities.get? id =
      ((w.session i).pc.row? id).or (w.rows.entities.get? id) := by
  unfold World.view
  rw [h.writes i hi]
  exact Table.get?_overlay _ _ _

theorem FamilyInv.view_of_row (h : FamilyInv w) (hi : Running w i) {id : String} {e : Entity}
    (hrow : (w.session i).pc.row? id = some e) : (w.view i).entities.get? id = some e := by
  rw [h.get?_view hi, hrow]
  rfl

theorem FamilyInv.disjoint (h : FamilyInv w) (hj : Running w j) (hne : j ≠ i)
    {id : String} (hlock : w.locks (.row id) = some i ∨ w.locks (.row id) = none) :
    (w.session j).pc.row? id = none := by
  cases hrow : (w.session j).pc.row? id with
  | none => rfl
  | some e =>
    have hheld := h.locked j hj id e hrow
    rcases hlock with hlock | hlock
    · exact absurd (Option.some.inj (hheld.symm.trans hlock)) hne
    · rw [hlock] at hheld
      cases hheld

theorem FamilyInv.view_noOrphan (h : FamilyInv w) (hi : Running w i) {parent : String}
    (hsettled : SettledIn (w.view i) parent) : ¬OpenUnder (w.view i) parent := by
  intro hunder
  obtain ⟨p, hp, hkind, hpsettled⟩ := hsettled
  obtain ⟨c, e, he, hchild, hopen⟩ := hunder
  rw [h.get?_view hi] at hp he
  cases hprow : (w.session i).pc.row? parent with
  | some q =>
    rw [hprow] at hp
    obtain rfl := Option.some.inj hp
    have hcloses := h.closes i hi parent (.inl ⟨q, hprow, hkind, hpsettled⟩)
    exact hcloses ⟨c, e, by rw [h.get?_view hi]; exact he, hchild, hopen⟩
  | none =>
    rw [hprow, Option.none_or] at hp
    cases hcrow : (w.session i).pc.row? c with
    | some q =>
      rw [hcrow] at he
      obtain rfl := Option.some.inj he
      have hopens := h.opens i hi parent (.inl ⟨c, q, hcrow, hchild, hopen⟩)
      apply hopens
      refine ⟨p, ?_, hkind, hpsettled⟩
      rw [h.get?_view hi, hprow, Option.none_or]
      exact hp
    | none =>
      rw [hcrow, Option.none_or] at he
      exact h.noOrphan parent ⟨p, hp, hkind, hpsettled⟩ ⟨c, e, he, hchild, hopen⟩

end Views

end Race

end Prequest.Cases
