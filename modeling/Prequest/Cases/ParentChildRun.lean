import Prequest.Cases.ParentChildSteps

/-!
# Every interleaving of writes of cases and work orders

* `familyLaw_of_separate`: the two laws in every schedule of separate statements.
* `closedOverOpenOrder`: a schedule that ends with an open work order under a closed case.
-/

namespace Prequest.Cases

open Prequest.Lib Prequest.Lib.ReadCommitted Prequest.Sla

variable {e : Entity}

section Statements

variable {ι : Type} {w w' : CaseWorld ι} {i j : ι}

/-! ## The statements -/

section Points

variable {next : Point} {old : Option Entity} {new : Entity} {parent : String}

/-- Nobody else opens a work order under a case that a transaction sees settled and holds. -/
theorem FamilyInv.not_opens_of_settled (h : FamilyInv w) (hi : Running w i)
    (hsettled : SettledIn (w.view i) parent) (hfree : Untouched w i parent) (hji : j ≠ i)
    (hj : Running w j) : ¬Opens (w.session j).pc parent := by
  intro ho
  obtain ⟨p, hp, hkind, hclosed⟩ := hsettled
  rw [h.get?_view hi] at hp
  cases hrow : (w.session i).pc.row? parent with
  | some q =>
    rw [hrow] at hp
    obtain rfl := Option.some.inj hp
    exact h.apart i j (fun heq => hji heq.symm) hi hj parent (.inl ⟨q, hrow, hkind, hclosed⟩) ho
  | none =>
    rw [hrow, Option.none_or] at hp
    apply h.opens j hj parent ho
    refine ⟨p, ?_, hkind, hclosed⟩
    rw [h.get?_view hj, hfree j hji hj, Option.none_or]
    exact hp

/-- Nobody else settles the case of an open work order that a transaction sees and holds. -/
theorem FamilyInv.not_closes_of_open (h : FamilyInv w) (hi : Running w i) {c : String} {o : Entity}
    (ho : (w.view i).entities.get? c = some o) (hchild : o.IsChildOf parent) (hopen : o.IsOpen)
    (hfree : Untouched w i c) (hji : j ≠ i) (hj : Running w j) :
    ¬Closes (w.session j).pc parent := by
  intro hc
  rw [h.get?_view hi] at ho
  cases hrow : (w.session i).pc.row? c with
  | some q =>
    rw [hrow] at ho
    obtain rfl := Option.some.inj ho
    exact h.apart j i hji hj hi parent hc (.inl ⟨c, q, hrow, hchild, hopen⟩)
  | none =>
    rw [hrow, Option.none_or] at ho
    apply h.closes j hj parent hc
    refine ⟨c, o, ?_, hchild, hopen⟩
    rw [h.get?_view hj, hfree j hji hj, Option.none_or]
    exact ho

theorem Reads.view_eq (hreads : Reads w w' i next) : w'.view i = w.view i := by
  unfold World.view
  rw [hreads.writes, hreads.rows]

theorem Reads.pointInv (hreads : Reads w w' i next) {point : Point} (h : PointInv w i point) :
    PointInv w' i point := by
  refine h.mono ?_ ?_
  · intro k hk
    exact hreads.kept k i hk hreads.after
  · intro id _
    rw [hreads.view_eq]

theorem FamilyInv.reads_ready (h : FamilyInv w) (hreads : Reads w w' i .ready)
    (hidle : ∀ parent, ¬Pending (w.session i).pc parent) : FamilyInv w' := by
  apply h.reads hreads
  · trivial
  · rintro parent ⟨_, heq, _⟩
    cases heq
  · rintro parent ⟨_, _, heq, _⟩
    cases heq
  · intro S parent _ hpend
    exact absurd hpend (hidle parent)

theorem FamilyInv.reads_lockRow (h : FamilyInv w) {op : CaseOp}
    (hreads : Reads w w' i (.lockRow op))
    (hidle : ∀ parent, ¬Pending (w.session i).pc parent) : FamilyInv w' := by
  apply h.reads hreads
  · trivial
  · rintro parent ⟨_, heq, _⟩
    cases heq
  · rintro parent ⟨_, _, heq, _⟩
    cases heq
  · intro S parent _ hpend
    exact absurd hpend (hidle parent)

theorem FamilyInv.reads_guardPoint (h : FamilyInv w) (hreads : Reads w w' i (guardPoint old new))
    (hidle : ∀ parent, ¬Pending (w.session i).pc parent) (hholds : HoldsOrder w' i old new)
    (hfree : ∀ o, old = some o → Untouched w i o.id) : FamilyInv w' := by
  apply h.reads hreads
  · unfold guardPoint
    cases hchecks : checksParent old new with
    | none => exact hholds
    | some parent => exact ⟨hholds, hchecks⟩
  · rintro parent ⟨next, hnext, _⟩
    unfold guardPoint at hnext
    cases hchecks : checksParent old new <;> simp [hchecks] at hnext
  · rintro parent ⟨old', new', hnext, hchild, hopen⟩
    unfold guardPoint at hnext
    cases hchecks : checksParent old new with
    | some parent' => simp [hchecks] at hnext
    | none =>
      simp only [hchecks, Point.writeOrder.injEq] at hnext
      obtain ⟨rfl, rfl⟩ := hnext
      -- the work order was open under the case before
      obtain ⟨o, ho, hparent, hoopen⟩ := open_of_unchecked hchecks hchild hopen
      obtain ⟨_, hokind, hoview, _⟩ := hholds.seen o ho
      rw [hreads.view_eq] at hoview
      have hochild : o.IsChildOf parent := ⟨hokind, hparent⟩
      constructor
      · intro hsettled
        exact h.view_noOrphan hreads.before hsettled ⟨o.id, o, hoview, hochild, hoopen⟩
      · intro j hji hj
        exact h.not_closes_of_open hreads.before hoview hochild hoopen (hfree o ho) hji hj
  · intro S parent _ hpend
    exact absurd hpend (hidle parent)

theorem FamilyInv.reads_settleCase (h : FamilyInv w) {o : Entity} {closed : Bool}
    (hreads : Reads w w' i (if isTerminal o.columns.statusCategory then
      .writeCase (settledCase o closed) else .countChildren (settledCase o closed)))
    (hidle : ∀ parent, ¬Pending (w.session i).pc parent)
    (ho : (w.view i).entities.get? o.id = some o) (hkind : o.kind = .case)
    (hfree : Untouched w i o.id) (hheld : w'.locks (.row o.id) = some i) : FamilyInv w' := by
  have hclosed : ¬(settledCase o closed).IsOpen := by
    cases closed <;> simp [settledCase, Entity.IsOpen, isTerminal, terminalCategories]
  have hholds : HoldsCase w' i (settledCase o closed) := by
    refine ⟨hkind, ⟨o, ?_, hkind, fun hopen => absurd hopen hclosed⟩, hheld⟩
    rw [hreads.view_eq]
    exact ho
  apply h.reads hreads
  · split_ifs
    · exact hholds
    · exact ⟨hholds, hclosed⟩
  · rintro parent ⟨next, hnext, rfl, _⟩
    split_ifs at hnext with hterminal
    · obtain rfl := Point.writeCase.inj hnext
      have hsettled : SettledIn (w.view i) o.id := by
        refine ⟨o, ho, hkind, ?_⟩
        unfold Entity.IsOpen
        rw [hterminal]
        decide
      constructor
      · exact h.view_noOrphan hreads.before hsettled
      · intro j hji hj
        exact h.not_opens_of_settled hreads.before hsettled hfree hji hj
  · rintro parent ⟨old', new', hnext, _⟩
    split_ifs at hnext
  · intro S parent _ hpend
    exact absurd hpend (hidle parent)

theorem FamilyInv.reads_countChildren (h : FamilyInv w) (hreads : Reads w w' i (.closeGuard e))
    (hpoint : (w.session i).pc.point = .countChildren e) : FamilyInv w' := by
  have hpt := h.points i hreads.before
  rw [hpoint] at hpt
  apply h.reads hreads
  · exact hreads.pointInv (show PointInv w i (.closeGuard e) from hpt)
  · rintro parent ⟨_, heq, _⟩
    cases heq
  · rintro parent ⟨_, _, heq, _⟩
    cases heq
  · intro S parent _ hpend hnot _
    unfold Pending at hpend hnot
    rw [hpoint] at hpend
    rw [hreads.point] at hnot
    exact absurd hpend hnot

theorem FamilyInv.reads_closeGuard (h : FamilyInv w) (hreads : Reads w w' i (.writeCase e))
    (hpoint : (w.session i).pc.point = .closeGuard e) (hnone : ¬OpenUnder (w.view i) e.id)
    (hseparate : Separate w i) : FamilyInv w' := by
  have hpt := h.points i hreads.before
  have hsep := hseparate hreads.before
  rw [hpoint] at hpt hsep
  obtain ⟨hholds, hclosed⟩ : HoldsCase w i e ∧ ¬e.IsOpen := hpt
  apply h.reads hreads
  · exact hreads.pointInv (show PointInv w i (.writeCase e) from hholds)
  · rintro parent ⟨next, hnext, rfl, _⟩
    obtain rfl := Point.writeCase.inj hnext
    exact ⟨hnone, hsep hnone⟩
  · rintro parent ⟨_, _, heq, _⟩
    cases heq
  · intro S parent _ hpend hnot _
    unfold Pending at hpend hnot
    rw [hpoint] at hpend
    rw [hreads.point] at hnot
    exact absurd ⟨hpend, hclosed⟩ hnot

theorem FamilyInv.reads_advisory (h : FamilyInv w)
    (hreads : Reads w w' i (.parentGuard parent old new))
    (hpoint : (w.session i).pc.point = .advisory parent old new) : FamilyInv w' := by
  have hpt := h.points i hreads.before
  rw [hpoint] at hpt
  apply h.reads hreads
  · exact hreads.pointInv (show PointInv w i (.parentGuard parent old new) from hpt)
  · rintro parent ⟨_, heq, _⟩
    cases heq
  · rintro parent ⟨_, _, heq, _⟩
    cases heq
  · intro S parent' _ hpend
    unfold Pending at hpend
    rw [hpoint] at hpend
    exact absurd hpend not_false

theorem FamilyInv.reads_parentGuard (h : FamilyInv w) (hreads : Reads w w' i (.writeOrder old new))
    (hpoint : (w.session i).pc.point = .parentGuard parent old new)
    (hopen : ¬SettledIn (w.view i) parent) (hseparate : Separate w i) : FamilyInv w' := by
  have hpt := h.points i hreads.before
  have hsep := hseparate hreads.before
  rw [hpoint] at hpt hsep
  obtain ⟨hholds, hchecks⟩ : HoldsOrder w i old new ∧ checksParent old new = some parent := hpt
  apply h.reads hreads
  · exact hreads.pointInv (show PointInv w i (.writeOrder old new) from hholds)
  · rintro parent ⟨_, heq, _⟩
    cases heq
  · rintro parent' ⟨old', new', hnext, hchild, _⟩
    obtain ⟨rfl, rfl⟩ := Point.writeOrder.inj hnext
    have hparent : parent' = parent :=
      Option.some.inj (hchild.2.symm.trans (checksParent_eq_some hchecks))
    rw [hparent]
    exact ⟨hopen, hsep hopen⟩
  · intro S parent' _ hpend
    unfold Pending at hpend
    rw [hpoint] at hpend
    exact absurd hpend not_false

theorem FamilyInv.reads_siblings (h : FamilyInv w)
    (hreads : Reads w w' i (.rollParent parent ((w.view i).childCategories parent)))
    (hpoint : (w.session i).pc.point = .readSiblings parent) (hseparate : Separate w i) :
    FamilyInv w' := by
  have hsep := hseparate hreads.before
  rw [hpoint] at hsep
  apply h.reads hreads
  · trivial
  · rintro parent ⟨_, heq, _⟩
    cases heq
  · rintro parent ⟨_, _, heq, _⟩
    cases heq
  · intro S parent' hS hpend hnot hnobody
    unfold Pending at hpend hnot
    rw [hpoint] at hpend
    rw [hreads.point] at hnot
    obtain rfl : parent = parent' := hpend
    -- an open work order that stays open keeps the case out of the law
    have hunder : OpenUnder (w.view i) parent := by
      by_contra hnone
      apply hnot
      refine ⟨rfl, ?_⟩
      intro category hcategory
      obtain ⟨c, x, hx, hchild, rfl⟩ := mem_childCategories.mp hcategory
      by_contra hne
      exact hnone ⟨c, x, hx, hchild, by simpa [Entity.IsOpen] using hne⟩
    obtain ⟨c, x, hx, hchild, hopen, hfree⟩ := hsep hunder
    intro p _ _ _ hall
    exact absurd hopen
      (hall c x (h.merged_of_leftAlone hreads.before hS hx hfree hnobody) hchild)

/-- Every transaction of a merged state sees its cases, and sees them open if they are. -/
theorem FamilyInv.seen_of_merged (h : FamilyInv w) (hi : Running w i) {S : ι → Prop} (hS : S i)
    {id : String} {p : Entity} (hp : Merged w S id p) (hkind : p.kind = .case) :
    ∃ q, (w.view i).entities.get? id = some q ∧ q.kind = .case ∧ (p.IsOpen → q.IsOpen) := by
  rcases hp with ⟨j, _, hj, hrow⟩ | ⟨hnone, hrows⟩
  · by_cases hji : j = i
    · subst hji
      exact ⟨p, h.view_of_row hj hrow, hkind, fun hopen => hopen⟩
    · obtain ⟨q, hq, hqkind, hopen⟩ := h.cases j hj id p hrow hkind
      refine ⟨q, ?_, hqkind, hopen⟩
      have hmine : (w.session i).pc.row? id = none :=
        h.untouched (.inl (h.locked j hj id p hrow)) i (fun heq => hji heq.symm) hi
      rw [h.get?_view hi, hmine, Option.none_or]
      exact hq
  · refine ⟨p, ?_, hkind, fun hopen => hopen⟩
    rw [h.get?_view hi, hnone i hS hi]
    exact hrows

section Rollup

variable {categories : List String}

/-- The transaction is in the update of its rollup. -/
def Rolling (pc : CasePc) (parent : String) (categories : List String) : Prop :=
  pc.point = .rollParent parent categories ∨ pc.point = .rollRow parent categories

theorem pending_of_rolling {pc : CasePc} {parent' : String} (h : Rolling pc parent categories) :
    Pending pc parent' ↔
      parent = parent' ∧ ∀ category ∈ categories, isTerminal category = true := by
  unfold Pending
  rcases h with hpoint | hpoint
  · rw [hpoint]
  · rw [hpoint]

/-- The rollup writes nothing: there is no case, or it is settled if all its work orders are. -/
theorem FamilyInv.reads_rollNothing (h : FamilyInv w) (hreads : Reads w w' i .ready)
    (hrolling : Rolling (w.session i).pc parent categories)
    (hsettled : (∀ category ∈ categories, isTerminal category = true) →
      ∀ row, (w.view i).entities.get? parent = some row → row.kind = .case → ¬row.IsOpen) :
    FamilyInv w' := by
  apply h.reads hreads
  · trivial
  · rintro parent ⟨_, heq, _⟩
    cases heq
  · rintro parent ⟨_, _, heq, _⟩
    cases heq
  · intro S parent' hS hpend _ _
    obtain ⟨rfl, hterminal⟩ := (pending_of_rolling hrolling).mp hpend
    intro p hp hkind _ _ hopen
    obtain ⟨q, hq, hqkind, hqopen⟩ := h.seen_of_merged hreads.before hS hp hkind
    exact hsettled hterminal q hq hqkind (hqopen hopen)

theorem FamilyInv.reads_rollFound (h : FamilyInv w)
    (hreads : Reads w w' i (.rollRow parent categories))
    (hrolling : Rolling (w.session i).pc parent categories) : FamilyInv w' := by
  apply h.reads hreads
  · trivial
  · rintro parent ⟨_, heq, _⟩
    cases heq
  · rintro parent ⟨_, _, heq, _⟩
    cases heq
  · intro S parent' _ hpend hnot _
    rw [pending_of_rolling (.inr hreads.point)] at hnot
    exact absurd ((pending_of_rolling hrolling).mp hpend) hnot

theorem FamilyInv.reads_rollSettled (h : FamilyInv w) (hreads : Reads w w' i (.closeGuard e))
    (hrolling : Rolling (w.session i).pc parent categories) (hid : e.id = parent)
    (hholds : HoldsCase w' i e) (hclosed : ¬e.IsOpen) : FamilyInv w' := by
  apply h.reads hreads
  · exact ⟨hholds, hclosed⟩
  · rintro parent ⟨_, heq, _⟩
    cases heq
  · rintro parent ⟨_, _, heq, _⟩
    cases heq
  · intro S parent' _ hpend hnot _
    unfold Pending at hnot
    rw [hreads.point] at hnot
    exact absurd (hid.trans ((pending_of_rolling hrolling).mp hpend).1) hnot

theorem FamilyInv.reads_rollOpen (h : FamilyInv w) (hreads : Reads w w' i (.writeCase e))
    (hrolling : Rolling (w.session i).pc parent categories) (hholds : HoldsCase w' i e)
    (hopen : e.IsOpen) (hsome : ¬∀ category ∈ categories, isTerminal category = true) :
    FamilyInv w' := by
  apply h.reads hreads
  · exact hholds
  · rintro parent ⟨next, hnext, _, hclosed⟩
    obtain rfl := Point.writeCase.inj hnext
    exact absurd hopen hclosed
  · rintro parent ⟨_, _, heq, _⟩
    cases heq
  · intro S parent' _ hpend
    exact absurd ((pending_of_rolling hrolling).mp hpend).2 hsome

end Rollup

end Points

end Statements

section Step

variable {ι : Type} [DecidableEq ι] {now : Int} {ops : ι → List CaseOp} {w : CaseWorld ι} {i : ι}

theorem frame_step (hi : Running w i) : Frame w (caseStep now ops w i) i where
  others _ hj := step_session_ne w hj
  kept _ _ hheld hrunning := lock_kept _ hheld hrunning
  before := hi

variable {next : Point}

theorem reads_step (hi : Running w i) (hfree : w.waits i (caseLock (w.session i).pc) = false)
    (todo : List CaseOp) (hexec : caseExec now (w.session i).pc (w.view i) =
      goTo { (w.session i).pc with todo := todo } next) :
    Reads w (caseStep now ops w i) i next := by
  have hstep := step_next (fun i => caseProgram now (ops i)) hi hfree hexec
  have hsession : (caseStep now ops w i).session i =
      { phase := .running, pc := { (w.session i).pc with todo := todo, point := next }
        writes := (w.session i).writes } := by
    unfold caseStep
    rw [hstep]
    exact Function.update_self ..
  refine { frame_step hi with after := ?_, rows := ?_, writes := ?_, written := ?_, point := ?_ }
  · unfold Running
    rw [hsession]
  · unfold caseStep
    rw [hstep]
  · rw [hsession]
  · rw [hsession]
  · rw [hsession]

theorem goes_step (hi : Running w i) (hfree : w.waits i (caseLock (w.session i).pc) = false)
    (hexec : caseExec now (w.session i).pc (w.view i) = goTo (w.session i).pc next) :
    Reads w (caseStep now ops w i) i next :=
  reads_step hi hfree (w.session i).pc.todo hexec

/-- The lock of a statement that is executed was free, and is held while the session runs. -/
theorem lock_step (now : Int) (ops : ι → List CaseOp) (hi : Running w i)
    (hfree : w.waits i (caseLock (w.session i).pc) = false) {k : CaseLock} (hlock : caseLock (w.session i).pc = some k) :
    (w.locks k = some i ∨ w.locks k = none) ∧
      (Running (caseStep now ops w i) i → (caseStep now ops w i).locks k = some i) := by
  constructor
  · rw [hlock] at hfree
    exact free_of_not_waits hfree
  · intro hgoes
    cases hexec : caseExec now (w.session i).pc (w.view i) with
    | next pc write =>
      unfold caseStep
      rw [step_next (fun i => caseProgram now (ops i)) hi hfree hexec]
      show w.acquire i (caseLock (w.session i).pc) k = some i
      rw [hlock]
      exact if_pos rfl
    | commit pc write =>
      unfold caseStep Running at hgoes
      rw [step_commit (fun i => caseProgram now (ops i)) hi hfree hexec] at hgoes
      simp [World.setSession] at hgoes
    | abort =>
      unfold caseStep Running at hgoes
      rw [step_abort (fun i => caseProgram now (ops i)) hi hfree hexec] at hgoes
      simp [World.setSession] at hgoes

theorem writes_step (hi : Running w i) (hfree : w.waits i (caseLock (w.session i).pc) = false)
    (hlock : caseLock (w.session i).pc = some (.row e.id))
    (hexec : caseExec now (w.session i).pc (w.view i) = writeAt (w.session i).pc e next) :
    Writes w (caseStep now ops w i) i e next := by
  have hstep := step_next (fun i => caseProgram now (ops i)) hi hfree hexec
  have hsession : (caseStep now ops w i).session i =
      { phase := .running
        pc := { (w.session i).pc with point := next, written := e :: (w.session i).pc.written }
        writes := fun db => writeEntity e ((w.session i).writes db) } := by
    unfold caseStep
    rw [hstep]
    exact Function.update_self ..
  have hafter : Running (caseStep now ops w i) i := by
    unfold Running
    rw [hsession]
  obtain ⟨hwas, hheld⟩ := lock_step now ops hi hfree hlock
  refine { frame_step hi with
    after := hafter, rows := ?_, writes := ?_, written := ?_, point := ?_
    free := hwas, held := hheld hafter }
  · unfold caseStep
    rw [hstep]
  · rw [hsession]
  · rw [hsession]
  · rw [hsession]

theorem FamilyInv.abort_step (h : FamilyInv w) (hi : Running w i)
    (hfree : w.waits i (caseLock (w.session i).pc) = false)
    (hexec : caseExec now (w.session i).pc (w.view i) = .abort) :
    FamilyInv (caseStep now ops w i) := by
  have hstep := step_abort (fun i => caseProgram now (ops i)) hi hfree hexec
  have hends : Ends w (caseStep now ops w i) i := by
    refine { frame_step hi with after := ?_ }
    unfold Running caseStep
    rw [hstep]
    simp [World.setSession]
  apply h.aborts hends
  unfold caseStep
  rw [hstep]

variable {db : CaseTables}

theorem entity?_eq_some {kind : EntityKind} {id : String} :
    db.entity? kind id = some e ↔ db.entities.get? id = some e ∧ e.kind = kind := by
  simp [CaseTables.entity?, Option.filter_eq_some_iff]

theorem FamilyInv.step_ready (h : FamilyInv w) (hi : Running w i)
    (hfree : w.waits i (caseLock (w.session i).pc) = false)
    (hpoint : (w.session i).pc.point = .ready) : FamilyInv (caseStep now ops w i) := by
  have hidle : ∀ parent, ¬Pending (w.session i).pc parent := by
    intro parent hpend
    unfold Pending at hpend
    rw [hpoint] at hpend
    exact hpend
  cases htodo : (w.session i).pc.todo with
  | nil =>
    have hexec : caseExec now (w.session i).pc (w.view i) = .commit (w.session i).pc id := by
      simp only [caseExec, hpoint, htodo]
    have hstep := step_commit (fun i => caseProgram now (ops i)) hi hfree hexec
    have hends : Ends w (caseStep now ops w i) i := by
      refine { frame_step hi with after := ?_ }
      unfold Running caseStep
      rw [hstep]
      simp [World.setSession]
    refine h.commits hends ?_ hpoint
    unfold caseStep
    rw [hstep]
    rfl
  | cons op rest =>
    have hbegin : caseExec now (w.session i).pc (w.view i) =
        beginOp (w.session i).pc op rest (w.view i) := by
      simp only [caseExec, hpoint, htodo]
    cases op with
    | insertOrder id parentTicketId columns =>
      apply h.reads_guardPoint (reads_step hi hfree rest hbegin) hidle
      · refine ⟨rfl, ?_⟩
        intro o ho
        cases ho
      · intro o ho
        cases ho
    | updateOrder id statusCategory parentTicketId =>
      by_cases hmissing : ((w.view i).entity? .workOrder id).isNone
      · apply h.abort_step hi hfree
        rw [hbegin]
        simp only [beginOp, if_pos hmissing]
      · have hreads : Reads w (caseStep now ops w i) i
            (.lockRow (.updateOrder id statusCategory parentTicketId)) := by
          apply reads_step hi hfree rest
          rw [hbegin]
          simp only [beginOp, if_neg hmissing]
        exact h.reads_lockRow hreads hidle
    | settleCase id closed =>
      by_cases hmissing : ((w.view i).ticket? id).isNone
      · apply h.abort_step hi hfree
        rw [hbegin]
        simp only [beginOp, if_pos hmissing]
      · have hreads : Reads w (caseStep now ops w i) i
            (.lockRow (.settleCase id closed)) := by
          apply reads_step hi hfree rest
          rw [hbegin]
          simp only [beginOp, if_neg hmissing]
        exact h.reads_lockRow hreads hidle

theorem FamilyInv.step_lockRow (h : FamilyInv w) (hi : Running w i)
    (hfree : w.waits i (caseLock (w.session i).pc) = false) {op : CaseOp}
    (hpoint : (w.session i).pc.point = .lockRow op) : FamilyInv (caseStep now ops w i) := by
  have hlocked : caseExec now (w.session i).pc (w.view i) =
      lockedOp (w.session i).pc op (w.view i) := by
    simp only [caseExec, hpoint]
  have hidle : ∀ parent, ¬Pending (w.session i).pc parent := by
    intro parent hpend
    unfold Pending at hpend
    rw [hpoint] at hpend
    exact hpend
  cases op with
  | insertOrder id parentTicketId columns => exact h.reads_ready (goes_step hi hfree hlocked) hidle
  | updateOrder id statusCategory parentTicketId =>
    have hlock : caseLock (w.session i).pc = some (.row id) := by
      simp only [caseLock, hpoint]
    obtain ⟨hwas, hheld⟩ := lock_step now ops hi hfree hlock
    cases hfound : (w.view i).entity? .workOrder id with
    | none =>
      apply h.abort_step hi hfree
      rw [hlocked]
      simp only [lockedOp, hfound]
    | some old =>
      obtain ⟨hold, hkind⟩ := entity?_eq_some.mp hfound
      obtain rfl := (Table.get?_eq_some.mp hold).2
      have hreads : Reads w (caseStep now ops w i) i
          (guardPoint (some old) (updatedOrder old statusCategory parentTicketId)) := by
        apply goes_step hi hfree
        rw [hlocked]
        simp only [lockedOp, hfound]
      apply h.reads_guardPoint hreads hidle
      · refine ⟨hkind, ?_⟩
        rintro o ⟨⟩
        refine ⟨rfl, hkind, ?_, hheld hreads.after⟩
        rw [hreads.view_eq]
        exact hold
      · rintro o ⟨⟩
        exact h.untouched hwas
  | settleCase id closed =>
    have hlock : caseLock (w.session i).pc = some (.row id) := by
      simp only [caseLock, hpoint]
    obtain ⟨hwas, hheld⟩ := lock_step now ops hi hfree hlock
    cases hfound : (w.view i).ticket? id with
    | none =>
      apply h.abort_step hi hfree
      rw [hlocked]
      simp only [lockedOp, hfound]
    | some old =>
      obtain ⟨hold, hkind⟩ := entity?_eq_some.mp hfound
      obtain rfl := (Table.get?_eq_some.mp hold).2
      have hreads : Reads w (caseStep now ops w i) i
          (if isTerminal old.columns.statusCategory then
            .writeCase (settledCase old closed)
          else .countChildren (settledCase old closed)) := by
        apply goes_step hi hfree
        rw [hlocked]
        simp only [lockedOp, hfound]
      exact h.reads_settleCase hreads hidle hold hkind (h.untouched hwas) (hheld hreads.after)

variable {categories : List String}

/-- A rollup over settled work orders that would not change the row has a settled case. -/
theorem settled_of_rollup_same {row : Entity}
    (hsame : rollup now categories row.columns = row.columns)
    (hterminal : ∀ category ∈ categories, isTerminal category = true) : ¬row.IsOpen := by
  intro hopen
  have hresolved : (rollup now categories row.columns).statusCategory = "resolved" :=
    rollup_of_settled hopen hterminal
  rw [hsame] at hresolved
  unfold Entity.IsOpen at hopen
  rw [hresolved] at hopen
  exact absurd hopen (by decide)

variable {parent : String}

theorem FamilyInv.step_rollNothing (h : FamilyInv w)
    (hreads : Reads w (caseStep now ops w i) i .ready)
    (hrolling : Rolling (w.session i).pc parent categories)
    (hrow : ∀ row, (w.view i).ticket? parent = some row →
      rollup now categories row.columns = row.columns) : FamilyInv (caseStep now ops w i) := by
  apply h.reads_rollNothing hreads hrolling
  intro hterminal row hget hkind
  exact settled_of_rollup_same (hrow row (entity?_eq_some.mpr ⟨hget, hkind⟩)) hterminal

theorem FamilyInv.step_rollParent (h : FamilyInv w) (hi : Running w i)
    (hfree : w.waits i (caseLock (w.session i).pc) = false)
    (hpoint : (w.session i).pc.point = .rollParent parent categories) :
    FamilyInv (caseStep now ops w i) := by
  cases hfound : (w.view i).ticket? parent with
  | none =>
    refine h.step_rollNothing (goes_step hi hfree ?_) (.inl hpoint) ?_
    · simp only [caseExec, hpoint, hfound]
    · intro row hrow
      rw [hfound] at hrow
      cases hrow
  | some row =>
    by_cases hsame : rollup now categories row.columns = row.columns
    · refine h.step_rollNothing (goes_step hi hfree ?_) (.inl hpoint) ?_
      · simp only [caseExec, hpoint, hfound, if_pos hsame]
      · intro row' hrow'
        rw [hfound] at hrow'
        obtain rfl := Option.some.inj hrow'
        exact hsame
    · refine h.reads_rollFound (goes_step hi hfree ?_) (.inl hpoint)
      simp only [caseExec, hpoint, hfound, if_neg hsame]

theorem FamilyInv.step_rollRow (h : FamilyInv w) (hi : Running w i)
    (hfree : w.waits i (caseLock (w.session i).pc) = false)
    (hpoint : (w.session i).pc.point = .rollRow parent categories) :
    FamilyInv (caseStep now ops w i) := by
  have hlock : caseLock (w.session i).pc = some (.row parent) := by
    simp only [caseLock, hpoint]
  obtain ⟨_, hheld⟩ := lock_step now ops hi hfree hlock
  cases hfound : (w.view i).ticket? parent with
  | none =>
    refine h.step_rollNothing (goes_step hi hfree ?_) (.inr hpoint) ?_
    · simp only [caseExec, hpoint, hfound]
    · intro row hrow
      rw [hfound] at hrow
      cases hrow
  | some row =>
    obtain ⟨hrow, hkind⟩ := entity?_eq_some.mp hfound
    obtain hid : row.id = parent := (Table.get?_eq_some.mp hrow).2
    by_cases hsame : rollup now categories row.columns = row.columns
    · refine h.step_rollNothing (goes_step hi hfree ?_) (.inr hpoint) ?_
      · simp only [caseExec, hpoint, hfound, if_pos hsame]
      · intro row' hrow'
        rw [hfound] at hrow'
        obtain rfl := Option.some.inj hrow'
        exact hsame
    · -- a settled case is left alone
      have hwasOpen : row.IsOpen := by
        by_contra hclosed
        apply hsame
        apply rollup_of_terminal
        simpa [Entity.IsOpen] using hclosed
      have hholds : ∀ next, Reads w (caseStep now ops w i) i next →
          HoldsCase (caseStep now ops w i) i
            { row with columns := rollup now categories row.columns } := by
        intro next hreads
        refine ⟨hkind, ⟨row, ?_, hkind, fun _ => hwasOpen⟩, ?_⟩
        · rw [hreads.view_eq]
          show (w.view i).entities.get? row.id = some row
          rw [hid]
          exact hrow
        · show (caseStep now ops w i).locks (.row row.id) = some i
          rw [hid]
          exact hheld hreads.after
      by_cases hterminal : isTerminal (rollup now categories row.columns).statusCategory = true
      · have hreads : Reads w (caseStep now ops w i) i
            (.closeGuard { row with columns := rollup now categories row.columns }) := by
          apply goes_step hi hfree
          simp only [caseExec, hpoint, hfound, if_neg hsame, hterminal, if_true]
        refine h.reads_rollSettled hreads (.inr hpoint) hid (hholds _ hreads) ?_
        unfold Entity.IsOpen
        rw [hterminal]
        decide
      · have hreads : Reads w (caseStep now ops w i) i
            (.writeCase { row with columns := rollup now categories row.columns }) := by
          apply goes_step hi hfree
          simp only [caseExec, hpoint, hfound, if_neg hsame, if_neg hterminal]
        apply h.reads_rollOpen hreads (.inr hpoint) (hholds _ hreads)
        · simpa [Entity.IsOpen] using hterminal
        · intro hall
          have hresolved : (rollup now categories row.columns).statusCategory = "resolved" :=
            rollup_of_settled hwasOpen hall
          apply hterminal
          rw [hresolved]
          decide

theorem not_settledIn_of_ticket?
    (h : ((db.ticket? parent).any fun p => isTerminal p.columns.statusCategory) = false) :
    ¬SettledIn db parent := by
  rintro ⟨p, hp, hkind, hclosed⟩
  have hticket : db.ticket? parent = some p := entity?_eq_some.mpr ⟨hp, hkind⟩
  rw [hticket] at h
  exact hclosed h

theorem FamilyInv.step (h : FamilyInv w) (hseparate : Separate w i) :
    FamilyInv (caseStep now ops w i) := by
  by_cases hi : Running w i
  case neg =>
    have hsame : caseStep now ops w i = w := by
      unfold caseStep ReadCommitted.step
      exact if_pos (.inl hi)
    rw [hsame]
    exact h
  cases hfree : w.waits i (caseLock (w.session i).pc) with
  | true =>
    rw [show caseStep now ops w i = w from step_of_waits _ hfree]
    exact h
  | false =>
    cases hpoint : (w.session i).pc.point with
    | ready => exact h.step_ready hi hfree hpoint
    | lockRow op => exact h.step_lockRow hi hfree hpoint
    | countChildren e =>
      by_cases hcount : 0 < (w.view i).openChildren e.id
      · apply h.abort_step hi hfree
        simp only [caseExec, hpoint, if_pos hcount]
      · apply h.reads_countChildren (goes_step hi hfree ?_) hpoint
        simp only [caseExec, hpoint, if_neg hcount]
    | closeGuard e =>
      by_cases hcount : 0 < (w.view i).openChildren e.id
      · apply h.abort_step hi hfree
        simp only [caseExec, hpoint, if_pos hcount]
      · refine h.reads_closeGuard (goes_step hi hfree ?_) hpoint ?_ hseparate
        · simp only [caseExec, hpoint, if_neg hcount]
        · exact openChildren_eq_zero.mp (Nat.eq_zero_of_not_pos hcount)
    | writeCase e =>
      have hlock : caseLock (w.session i).pc = some (.row e.id) := by
        simp only [caseLock, hpoint]
      refine h.writes_case (writes_step hi hfree hlock ?_) hpoint
      simp only [caseExec, hpoint]
    | advisory parent old new =>
      apply h.reads_advisory (goes_step hi hfree ?_) hpoint
      simp only [caseExec, hpoint]
    | parentGuard parent old new =>
      cases hsettled : ((w.view i).ticket? parent).any
          fun p => isTerminal p.columns.statusCategory with
      | true =>
        apply h.abort_step hi hfree
        simp only [caseExec, hpoint, hsettled, if_true]
      | false =>
        refine h.reads_parentGuard (goes_step hi hfree ?_) hpoint
          (not_settledIn_of_ticket? hsettled) hseparate
        simp [caseExec, hpoint, hsettled]
    | writeOrder old new =>
      by_cases htaken : old = none ∧ ((w.view i).entities.get? new.id).isSome
      · apply h.abort_step hi hfree
        simp only [caseExec, hpoint, if_pos htaken]
      · have hlock : caseLock (w.session i).pc = some (.row new.id) := by
          simp only [caseLock, hpoint]
        have hwrites : Writes w (caseStep now ops w i) i new (rollupPoint old new) := by
          apply writes_step hi hfree hlock
          simp only [caseExec, hpoint, if_neg htaken]
        refine h.writes_order hwrites hpoint ?_ hseparate
        intro hnone
        cases hget : (w.view i).entities.get? new.id with
        | none => rfl
        | some x => exact absurd ⟨hnone, by rw [hget]; rfl⟩ htaken
    | readSiblings parent =>
      apply h.reads_siblings (goes_step hi hfree ?_) hpoint hseparate
      simp only [caseExec, hpoint]
    | rollParent parent categories => exact h.step_rollParent hi hfree hpoint
    | rollRow parent categories => exact h.step_rollRow hi hfree hpoint

/-! ## Every schedule -/

theorem FamilyInv.start (horphan : NoOrphan db) (hrolled : RolledUp db) :
    FamilyInv (caseWorld now ops db) := by
  have hmerged : ∀ S id x, Merged (caseWorld now ops db) S id x ↔ db.entities.get? id = some x := by
    intro S id x
    constructor
    · rintro (⟨j, _, _, hrow⟩ | ⟨_, hrow⟩)
      · cases hrow
      · exact hrow
    · intro hrow
      exact .inr ⟨fun _ _ _ => rfl, hrow⟩
  constructor
  · intro j _
    rfl
  · intro j _ id x hrow
    cases hrow
  · intro j _ id p hrow
    cases hrow
  · intro j _
    trivial
  · exact noOrphan_iff.mp horphan
  · rintro j _ parent (⟨p, hrow, _⟩ | ⟨next, hnext, _⟩)
    · cases hrow
    · cases hnext
  · rintro j _ parent (⟨c, x, hrow, _⟩ | ⟨old, new, hnext, _⟩)
    · cases hrow
    · cases hnext
  · rintro j k _ _ _ parent (⟨p, hrow, _⟩ | ⟨next, hnext, _⟩)
    · cases hrow
    · cases hnext
  · intro S parent
    left
    intro p hp hkind hex hall
    simp only [hmerged] at hp hex hall
    obtain ⟨hpmem, rfl⟩ := Table.get?_eq_some.mp hp
    apply hrolled p hpmem hkind
    · obtain ⟨c, x, hx, hchild⟩ := hex
      exact ⟨x, (Table.get?_eq_some.mp hx).1, hchild⟩
    · intro x hx hchild
      exact hall x.id x (Table.get?_of_mem hx) hchild

omit [DecidableEq ι] in
theorem FamilyInv.laws (h : FamilyInv w) : NoOrphan w.rows ∧ RolledUp w.rows := by
  refine ⟨noOrphan_iff.mpr h.noOrphan, ?_⟩
  have hmerged : ∀ id x, Merged w (fun _ => False) id x ↔ w.rows.entities.get? id = some x := by
    intro id x
    simp [Merged]
  intro p hp hkind hex hall
  rcases h.rolled (fun _ => False) p.id with hfine | ⟨_, hnobody, _⟩
  · apply hfine p
    · rw [hmerged]
      exact Table.get?_of_mem hp
    · exact hkind
    · obtain ⟨c, hc, hchild⟩ := hex
      exact ⟨c.id, c, (hmerged _ _).mpr (Table.get?_of_mem hc), hchild⟩
    · intro c x hx hchild
      rw [hmerged] at hx
      exact hall x (Table.get?_eq_some.mp hx).1 hchild
  · exact absurd hnobody not_false

end Step

/-- No settled case has an open work order after any prefix, and once all transactions have ended
every case with settled work orders only is settled. -/
def FamilyLaw {ι : Type} [DecidableEq ι] (now : Int) (ops : ι → List CaseOp) (db : CaseTables)
    (sched : List ι) : Prop :=
  (∀ pre post, sched = pre ++ post →
    NoOrphan (run (caseStep now ops) (caseWorld now ops db) pre).rows) ∧
  (AllEnded (run (caseStep now ops) (caseWorld now ops db) sched) →
    RolledUp (run (caseStep now ops) (caseWorld now ops db) sched).rows)

/-- Separate statements keep cases and work orders consistent. -/
theorem familyLaw_of_separate {ι : Type} [DecidableEq ι] (now : Int) (ops : ι → List CaseOp)
    {db : CaseTables} (horphan : NoOrphan db) (hrolled : RolledUp db) {sched : List ι}
    (hseparate : Guarded (caseStep now ops) Separate (caseWorld now ops db) sched) :
    FamilyLaw now ops db sched := by
  have hlaws : ∀ sched', Guarded (caseStep now ops) Separate (caseWorld now ops db) sched' →
      NoOrphan (run (caseStep now ops) (caseWorld now ops db) sched').rows ∧
        RolledUp (run (caseStep now ops) (caseWorld now ops db) sched').rows := by
    intro sched' hguarded
    have hinv : FamilyInv (run (caseStep now ops) (caseWorld now ops db) sched') :=
      hguarded.invariant (fun w i h hsep => h.step hsep) (FamilyInv.start horphan hrolled)
    exact hinv.laws
  constructor
  · intro pre post hsplit
    rw [hsplit] at hseparate
    exact (hlaws pre hseparate.take).1
  · intro _
    exact (hlaws sched hseparate).2

/-- A case that is assigned, without work orders. -/
def childlessCase : CaseTables where
  entities :=
    { rows :=
        [{ id := "case"
           kind := .case
           columns := { status := "assigned", statusCategory := "assigned" } }]
      nodup := by decide }

theorem childlessCase_consistent : NoOrphan childlessCase ∧ RolledUp childlessCase := by
  constructor
  · intro p hp _ hclosed
    obtain rfl := List.mem_singleton.mp hp
    exact absurd rfl hclosed
  · rintro p _ _ ⟨c, hc, hchild, _⟩
    obtain rfl := List.mem_singleton.mp hc
    cases hchild

def addAndClose : Bool → List CaseOp
  | true => [.insertOrder "order" (some "case") { status := "new", statusCategory := "new" }]
  | false => [.settleCase "case" true]

/-- The case is closed between the guard of the work order and its insert. -/
theorem closedOverOpenOrder :
    ¬∀ (ops : Bool → List CaseOp) (db : CaseTables) (sched : List Bool),
      NoOrphan db → RolledUp db → FamilyLaw 0 ops db sched := by
  intro h
  have hlaw := (h addAndClose childlessCase
    [true, true, true, false, false, false, false, false, false, true, true, true, true]
    childlessCase_consistent.1 childlessCase_consistent.2).1 _ [] (List.append_nil _).symm
  have hsettled := hlaw
    { id := "case"
      kind := .case
      columns := { status := "assigned", statusCategory := "closed" } } (by decide +kernel) rfl
    (by unfold Entity.IsOpen; decide)
    { id := "order"
      kind := .workOrder
      parentTicketId := some "case"
      columns := { status := "new", statusCategory := "new" } } (by decide +kernel) ⟨rfl, rfl⟩
  exact hsettled rfl

theorem not_openUnder {db : CaseTables} {parent : String} (h : ∀ e ∈ db.entities.rows,
    e.kind = .case ∨ isTerminal e.columns.statusCategory = true) : ¬OpenUnder db parent := by
  rintro ⟨c, e, he, hchild, hopen⟩
  rcases h e (Table.get?_eq_some.mp he).1 with hcase | hterminal
  · rw [hchild.1] at hcase
    cases hcase
  · unfold Entity.IsOpen at hopen
    rw [hopen] at hterminal
    cases hterminal

theorem not_opens {pc : CasePc} {parent : String} {categories : List String}
    (hpoint : pc.point = .rollRow parent categories)
    (h : ∀ e ∈ pc.written, isTerminal e.columns.statusCategory = true) : ¬Opens pc parent := by
  rintro (⟨c, e, he, _, hopen⟩ | ⟨old, new, hwrites, _⟩)
  · unfold Entity.IsOpen at hopen
    rw [h e (List.mem_of_find?_eq_some he)] at hopen
    cases hopen
  · rw [hpoint] at hwrites
    cases hwrites

def addResolved : Bool → List CaseOp
  | true => [.insertOrder "first" (some "case") { status := "done", statusCategory := "resolved" }]
  | false => [.insertOrder "second" (some "case") { status := "done", statusCategory := "resolved" }]

/-- Two transactions that add a resolved work order each. The second waits for the case that the
first one resolves. -/
theorem resolvedOrders_consistent :
    FamilyLaw 0 addResolved childlessCase
      [true, false, true, false, true, true, true, false, false, true, true, false, true, false,
        false] := by
  apply familyLaw_of_separate 0 _ childlessCase_consistent.1 childlessCase_consistent.2
  refine ⟨fun _ => trivial, fun _ => trivial, fun _ => trivial, fun _ => trivial, fun _ => ?_,
    fun _ => trivial, fun _ => trivial, fun _ => ?_, fun _ => trivial, fun _ => ?_,
    fun _ => trivial, fun _ => trivial, fun _ => trivial, fun _ => trivial, fun _ => trivial,
    trivial⟩
  · exact fun hopen => absurd hopen (not_openUnder (by decide +kernel))
  · exact fun hopen => absurd hopen (not_openUnder (by decide +kernel))
  · intro _ j hj _
    cases j with
    | true => exact absurd rfl hj
    | false => exact @not_opens _ _ ["resolved"] (by decide +kernel) (by decide +kernel)

end Prequest.Cases
