import Prequest.Cases.ParentChildRace

/-!
# What a statement on cases and work orders keeps

* `FamilyInv.reads`, `FamilyInv.writes_case`, `FamilyInv.writes_order`, `FamilyInv.commits`,
  `FamilyInv.aborts`: each of them keeps the invariant.
-/

namespace Prequest.Cases

open Prequest.Lib Prequest.Lib.ReadCommitted Prequest.Sla

section Statements

variable {ι : Type} {w w' : CaseWorld ι} {i j : ι}

/-! ## What a statement does to the world -/

/-- The other transactions go on as they were, and everybody keeps the locks. -/
structure Frame (w w' : CaseWorld ι) (i : ι) : Prop where
  others : ∀ j, j ≠ i → w'.session j = w.session j
  kept : ∀ k j, w.locks k = some j → Running w' j → w'.locks k = some j
  before : Running w i

/-- The statement writes nothing. -/
structure Reads (w w' : CaseWorld ι) (i : ι) (next : Point) : Prop extends Frame w w' i where
  after : Running w' i
  rows : w'.rows = w.rows
  writes : (w'.session i).writes = (w.session i).writes
  written : (w'.session i).pc.written = (w.session i).pc.written
  point : (w'.session i).pc.point = next

structure Writes (w w' : CaseWorld ι) (i : ι) (e : Entity) (next : Point) : Prop
    extends Frame w w' i where
  after : Running w' i
  rows : w'.rows = w.rows
  writes : (w'.session i).writes = fun db => writeEntity e ((w.session i).writes db)
  written : (w'.session i).pc.written = e :: (w.session i).pc.written
  point : (w'.session i).pc.point = next
  free : w.locks (.row e.id) = some i ∨ w.locks (.row e.id) = none
  held : w'.locks (.row e.id) = some i

/-- The transaction ends; its writes become the committed rows, or are gone. -/
structure Ends (w w' : CaseWorld ι) (i : ι) : Prop extends Frame w w' i where
  after : ¬Running w' i

theorem Frame.running_iff (h : Frame w w' i) (hj : j ≠ i) : Running w' j ↔ Running w j := by
  unfold Running
  rw [h.others j hj]

theorem Frame.view_eq (h : Frame w w' i) (hrows : w'.rows = w.rows) (hj : j ≠ i) :
    w'.view j = w.view j := by
  unfold World.view
  rw [h.others j hj, hrows]

theorem PointInv.mono (hkept : ∀ k, w.locks k = some j → w'.locks k = some j)
    (hview : ∀ id, w.locks (.row id) = some j →
      (w'.view j).entities.get? id = (w.view j).entities.get? id)
    {point : Point} (h : PointInv w j point) : PointInv w' j point := by
  have hcase : ∀ next, HoldsCase w j next → HoldsCase w' j next := by
    intro next hnext
    obtain ⟨p, hp, hpkind, hpopen⟩ := hnext.seen
    refine ⟨hnext.kind, ⟨p, ?_, hpkind, hpopen⟩, hkept _ hnext.held⟩
    rw [hview _ hnext.held]
    exact hp
  have horder : ∀ old new, HoldsOrder w j old new → HoldsOrder w' j old new := by
    intro old new hold
    refine ⟨hold.kind, ?_⟩
    intro o ho
    obtain ⟨hid, hkind, hseen, hheld⟩ := hold.seen o ho
    refine ⟨hid, hkind, ?_, hkept _ hheld⟩
    rw [hview _ hheld]
    exact hseen
  cases point with
  | ready => trivial
  | lockRow op => trivial
  | countChildren next => exact ⟨hcase next h.1, h.2⟩
  | closeGuard next => exact ⟨hcase next h.1, h.2⟩
  | writeCase next => exact hcase next h
  | advisory parent old new => exact ⟨horder old new h.1, h.2⟩
  | parentGuard parent old new => exact ⟨horder old new h.1, h.2⟩
  | writeOrder old new => exact horder old new h
  | readSiblings parent => trivial
  | rollParent parent categories => trivial
  | rollRow parent categories => trivial

/-! ## Reading -/

/-- The transaction is about to settle the case. -/
def AboutToClose (point : Point) (parent : String) : Prop :=
  ∃ next, point = .writeCase next ∧ next.id = parent ∧ ¬next.IsOpen

def AboutToOpen (point : Point) (parent : String) : Prop :=
  ∃ old new, point = .writeOrder old new ∧ new.IsChildOf parent ∧ new.IsOpen

/-- Another transaction of the merged state still has to roll the case up. -/
def OthersPending (w : CaseWorld ι) (i : ι) (S : ι → Prop) (parent : String) : Prop :=
  ∃ j, j ≠ i ∧ S j ∧ Running w j ∧ Pending (w.session j).pc parent

theorem FamilyInv.reads (h : FamilyInv w) {next : Point} (hreads : Reads w w' i next)
    (hpoint : PointInv w' i next)
    (hcloses : ∀ parent, AboutToClose next parent → ¬OpenUnder (w.view i) parent ∧
      ∀ j, j ≠ i → Running w j → ¬Opens (w.session j).pc parent)
    (hopens : ∀ parent, AboutToOpen next parent → ¬SettledIn (w.view i) parent ∧
      ∀ j, j ≠ i → Running w j → ¬Closes (w.session j).pc parent)
    (hpending : ∀ (S : ι → Prop) parent, S i → Pending (w.session i).pc parent →
      ¬Pending (w'.session i).pc parent → ¬OthersPending w i S parent →
        FamilyOk (Merged w S) parent) : FamilyInv w' := by
  have hrunning : ∀ j, Running w' j ↔ Running w j := by
    intro j
    by_cases hj : j = i
    · subst hj
      exact iff_of_true hreads.after hreads.before
    · exact hreads.running_iff hj
  have hwrites : ∀ j, (w'.session j).writes = (w.session j).writes := by
    intro j
    by_cases hj : j = i
    · subst hj
      exact hreads.writes
    · rw [hreads.others j hj]
  have hwritten : ∀ j, (w'.session j).pc.written = (w.session j).pc.written := by
    intro j
    by_cases hj : j = i
    · subst hj
      exact hreads.written
    · rw [hreads.others j hj]
  have hview : ∀ j, w'.view j = w.view j := by
    intro j
    unfold World.view
    rw [hwrites, hreads.rows]
  have hrow : ∀ j id, (w'.session j).pc.row? id = (w.session j).pc.row? id := by
    intro j id
    unfold CasePc.row?
    rw [hwritten]
  -- what was in hand before, or the new point
  have hclosesOf : ∀ j parent, Closes (w'.session j).pc parent →
      Closes (w.session j).pc parent ∨ j = i ∧ AboutToClose next parent := by
    intro j parent hc
    by_cases hj : j = i
    · subst hj
      rcases hc with ⟨p, hp, hclosed⟩ | ⟨p, hp, hclosed⟩
      · rw [hrow] at hp
        exact .inl (.inl ⟨p, hp, hclosed⟩)
      · rw [hreads.point] at hp
        exact .inr ⟨rfl, p, hp, hclosed⟩
    · rw [hreads.others j hj] at hc
      exact .inl hc
  have hopensOf : ∀ j parent, Opens (w'.session j).pc parent →
      Opens (w.session j).pc parent ∨ j = i ∧ AboutToOpen next parent := by
    intro j parent ho
    by_cases hj : j = i
    · subst hj
      rcases ho with ⟨c, e, he, hopen⟩ | ⟨old, new, he, hopen⟩
      · rw [hrow] at he
        exact .inl (.inl ⟨c, e, he, hopen⟩)
      · rw [hreads.point] at he
        exact .inr ⟨rfl, old, new, he, hopen⟩
    · rw [hreads.others j hj] at ho
      exact .inl ho
  have hmerged : ∀ S id e, Merged w' S id e ↔ Merged w S id e := by
    intro S id e
    unfold Merged
    simp only [hrunning, hrow, hreads.rows]
  constructor
  · intro j hj
    rw [hwrites, hwritten]
    exact h.writes j ((hrunning j).mp hj)
  · intro j hj id e he
    rw [hrow] at he
    exact hreads.kept _ _ (h.locked j ((hrunning j).mp hj) id e he) hj
  · intro j hj id p hp hkind
    rw [hrow] at hp
    rw [hreads.rows]
    exact h.cases j ((hrunning j).mp hj) id p hp hkind
  · intro j hj
    by_cases hji : j = i
    · subst hji
      rw [hreads.point]
      exact hpoint
    · rw [hreads.others j hji]
      refine (h.points j ((hrunning j).mp hj)).mono ?_ ?_
      · intro k hk
        exact hreads.kept k j hk hj
      · intro id _
        rw [hview]
  · intro parent
    rw [hreads.rows]
    exact h.noOrphan parent
  · intro j hj parent hc
    rw [hview]
    rcases hclosesOf j parent hc with hold | ⟨rfl, hnew⟩
    · exact h.closes j ((hrunning j).mp hj) parent hold
    · exact (hcloses parent hnew).1
  · intro j hj parent ho
    rw [hview]
    rcases hopensOf j parent ho with hold | ⟨rfl, hnew⟩
    · exact h.opens j ((hrunning j).mp hj) parent hold
    · exact (hopens parent hnew).1
  · intro j k hjk hj hk parent hc ho
    rw [hrunning] at hj hk
    rcases hclosesOf j parent hc with hcold | ⟨rfl, hcnew⟩
    · rcases hopensOf k parent ho with hoold | ⟨rfl, honew⟩
      · exact h.apart j k hjk hj hk parent hcold hoold
      · exact (hopens parent honew).2 j hjk hj hcold
    · rcases hopensOf k parent ho with hoold | ⟨rfl, _⟩
      · exact (hcloses parent hcnew).2 k hjk.symm hk hoold
      · exact hjk rfl
  · intro S parent
    have hok : FamilyOk (Merged w' S) parent ↔ FamilyOk (Merged w S) parent := by
      unfold FamilyOk
      simp only [hmerged]
    rw [hok]
    by_cases hothers : OthersPending w i S parent
    · obtain ⟨j, hj, hS, hrun, hpend⟩ := hothers
      refine .inr ⟨j, hS, (hrunning j).mpr hrun, ?_⟩
      rw [hreads.others j hj]
      exact hpend
    rcases h.rolled S parent with hfine | ⟨j, hS, hrun, hpend⟩
    · exact .inl hfine
    · by_cases hj : j = i
      · subst hj
        by_cases hstill : Pending (w'.session j).pc parent
        · exact .inr ⟨j, hS, hreads.after, hstill⟩
        · exact .inl (hpending S parent hS hpend hstill hothers)
      · exact absurd ⟨j, hj, hS, hrun, hpend⟩ hothers

/-! ## Writing -/

theorem FamilyInv.closes_not_opens (h : FamilyInv w) (hi : Running w i) {parent : String}
    (hc : Closes (w.session i).pc parent) : ¬Opens (w.session i).pc parent := by
  intro ho
  rcases ho with ⟨c, e, he, hchild, hopen⟩ | ⟨old, new, hpoint, hchild, hopen⟩
  · exact h.closes i hi parent hc ⟨c, e, h.view_of_row hi he, hchild, hopen⟩
  · have hopens : Opens (w.session i).pc parent := .inr ⟨old, new, hpoint, hchild, hopen⟩
    rcases hc with ⟨p, hp, hkind, hclosed⟩ | ⟨next, hnext, _⟩
    · exact h.opens i hi parent hopens ⟨p, h.view_of_row hi hp, hkind, hclosed⟩
    · rw [hpoint] at hnext
      cases hnext

section Write

variable {e : Entity} {next : Point} {S : ι → Prop}

theorem Writes.row? (h : Writes w w' i e next) (id : String) :
    (w'.session i).pc.row? id = if e.id = id then some e else (w.session i).pc.row? id := by
  unfold CasePc.row?
  rw [h.written, List.find?_cons]
  by_cases hid : e.id = id
  · rw [if_pos hid]
    simp [Keyed.key, hid]
  · rw [if_neg hid]
    simp [Keyed.key, hid]

theorem Writes.view (h : Writes w w' i e next) (id : String) :
    (w'.view i).entities.get? id = if e.id = id then some e else (w.view i).entities.get? id := by
  unfold World.view
  rw [h.writes, h.rows]
  show Table.get? (Table.write _ e) id = _
  rw [Table.get?_write]
  by_cases hid : e.id = id
  · rw [if_pos hid, if_pos (show id = Keyed.key e from hid.symm)]
  · rw [if_neg hid, if_neg (show ¬id = Keyed.key e from fun heq => hid heq.symm)]

theorem Writes.running_iff (h : Writes w w' i e next) (j : ι) : Running w' j ↔ Running w j := by
  by_cases hj : j = i
  · subst hj
    exact iff_of_true h.after h.before
  · exact h.toFrame.running_iff hj

/-- The written row takes the place of the one before in every merged state with its writer. -/
theorem FamilyInv.merged_writes (h : FamilyInv w) (hw : Writes w w' i e next) (hS : S i)
    (id : String) (x : Entity) :
    Merged w' S id x ↔ if e.id = id then x = e else Merged w S id x := by
  by_cases hid : e.id = id
  · rw [if_pos hid]
    subst hid
    have hmine : (w'.session i).pc.row? e.id = some e := by
      rw [hw.row?, if_pos rfl]
    constructor
    · rintro (⟨j, hj, hrun, hrow⟩ | ⟨hnone, _⟩)
      · by_cases hji : j = i
        · subst hji
          rw [hmine] at hrow
          exact (Option.some.inj hrow).symm
        · rw [hw.others j hji, h.disjoint ((hw.running_iff j).mp hrun) hji hw.free] at hrow
          cases hrow
      · rw [hnone i hS hw.after] at hmine
        cases hmine
    · rintro rfl
      exact .inl ⟨i, hS, hw.after, hmine⟩
  · rw [if_neg hid]
    have hrow : ∀ j, (w'.session j).pc.row? id = (w.session j).pc.row? id := by
      intro j
      by_cases hji : j = i
      · subst hji
        rw [hw.row?, if_neg hid]
      · rw [hw.others j hji]
    unfold Merged
    simp only [hrow, hw.running_iff, hw.rows]

variable {x : Entity}

theorem FamilyInv.merged_unique_writes (h : FamilyInv w) (hw : Writes w w' i e next) (hS : S i)
    (hx : Merged w' S e.id x) : x = e := by
  rw [h.merged_writes hw hS, if_pos rfl] at hx
  exact hx

theorem merged_writes_ne (hw : Writes w w' i e next) (hS : ¬S i) (id : String) (x : Entity) :
    Merged w' S id x ↔ Merged w S id x := by
  have hne : ∀ j, S j → j ≠ i := by
    rintro j hj rfl
    exact hS hj
  have hrow : ∀ j, S j → (w'.session j).pc.row? id = (w.session j).pc.row? id := by
    intro j hj
    rw [hw.others j (hne j hj)]
  unfold Merged
  rw [hw.rows]
  apply or_congr
  · apply exists_congr
    intro j
    apply and_congr_right
    intro hj
    rw [hrow j hj, hw.running_iff]
  · apply and_congr_left
    intro _
    apply forall_congr'
    intro j
    apply imp_congr_right
    intro hj
    rw [hrow j hj, hw.running_iff]

variable {id : String}

/-- What a transaction sees is there in every merged state with it and with nobody else who has
written the row. -/
theorem FamilyInv.merged_of_view (h : FamilyInv w) (hi : Running w i) (hS : S i)
    (hx : (w.view i).entities.get? id = some x)
    (hnone : ∀ j, S j → j ≠ i → Running w j → (w.session j).pc.row? id = none) :
    Merged w S id x := by
  rw [h.get?_view hi] at hx
  cases hrow : (w.session i).pc.row? id with
  | some y =>
    rw [hrow] at hx
    obtain rfl := Option.some.inj hx
    exact .inl ⟨i, hS, hi, hrow⟩
  | none =>
    rw [hrow, Option.none_or] at hx
    refine .inr ⟨?_, hx⟩
    intro j hSj hj
    by_cases hji : j = i
    · rw [hji]
      exact hrow
    · exact hnone j hSj hji hj

variable {parent : String}

theorem FamilyInv.merged_of_leftAlone (h : FamilyInv w) (hi : Running w i) (hS : S i)
    (hx : (w.view i).entities.get? id = some x) (halone : LeftAlone w i parent id)
    (hnobody : ¬OthersPending w i S parent) : Merged w S id x := by
  apply h.merged_of_view hi hS hx
  intro j hSj hji hj
  rcases halone j hji hj with hnone | hpend
  · exact hnone
  · exact absurd ⟨j, hji, hSj, hj, hpend⟩ hnobody

theorem FamilyInv.view_of_merged (h : FamilyInv w) (hi : Running w i) (hS : S i)
    (hx : Merged w S id x) : ∃ k, S k ∧ Running w k ∧ (w.view k).entities.get? id = some x := by
  rcases hx with ⟨k, hk, hrun, hrow⟩ | ⟨hnone, hrows⟩
  · exact ⟨k, hk, hrun, h.view_of_row hrun hrow⟩
  · refine ⟨i, hS, hi, ?_⟩
    rw [h.get?_view hi, hnone i hS hi]
    exact hrows

theorem FamilyInv.untouched (h : FamilyInv w)
    (hlock : w.locks (.row id) = some i ∨ w.locks (.row id) = none) : Untouched w i id := by
  intro j hji hj
  exact h.disjoint hj hji hlock

theorem FamilyInv.merged_unique (h : FamilyInv w) {y : Entity} (hx : Merged w S id x)
    (hy : Merged w S id y) : x = y := by
  rcases hx with ⟨j, hj, hrunj, hrowj⟩ | ⟨hnonex, hrowsx⟩
  · rcases hy with ⟨k, _, hrunk, hrowk⟩ | ⟨hnoney, _⟩
    · by_cases hkj : k = j
      · rw [hkj, hrowj] at hrowk
        exact Option.some.inj hrowk
      · rw [h.untouched (.inl (h.locked j hrunj id x hrowj)) k hkj hrunk] at hrowk
        cases hrowk
    · rw [hnoney j hj hrunj] at hrowj
      cases hrowj
  · rcases hy with ⟨k, hk, hrunk, hrowk⟩ | ⟨_, hrowsy⟩
    · rw [hnonex k hk hrunk] at hrowk
      cases hrowk
    · exact Option.some.inj (hrowsx.symm.trans hrowsy)

/-- A write keeps the invariant if the written row was in hand and the rollup holds after it. -/
theorem FamilyInv.writes_row (h : FamilyInv w) (hw : Writes w w' i e next)
    (hpoint : PointInv w' i next)
    (hwas : e.kind = .case → ∃ q, w.rows.entities.get? e.id = some q ∧ q.kind = .case ∧
      (e.IsOpen → q.IsOpen))
    (hready : ∀ parent, ¬AboutToClose next parent ∧ ¬AboutToOpen next parent)
    (hcase : ∀ parent, e.id = parent → e.kind = .case → ¬e.IsOpen →
      Closes (w.session i).pc parent)
    (horder : ∀ parent, e.IsChildOf parent → e.IsOpen → Opens (w.session i).pc parent)
    (hpending : ∀ parent, ¬Pending (w.session i).pc parent ∨
      ∀ S : ι → Prop, S i → FamilyOk (Merged w' S) parent)
    (hrolled : ∀ (S : ι → Prop) parent, S i → ¬OthersPending w i S parent →
      FamilyOk (Merged w S) parent →
        FamilyOk (Merged w' S) parent ∨ Pending (w'.session i).pc parent) : FamilyInv w' := by
  have hview : ∀ j, j ≠ i → w'.view j = w.view j := by
    intro j hj
    exact hw.toFrame.view_eq hw.rows hj
  have hclosesOf : ∀ j parent, Closes (w'.session j).pc parent → Closes (w.session j).pc parent := by
    intro j parent hc
    by_cases hj : j = i
    · subst hj
      rcases hc with ⟨p, hp, hkind, hclosed⟩ | ⟨p, hp, hclosed⟩
      · rw [hw.row?] at hp
        split_ifs at hp with hid
        · obtain rfl := Option.some.inj hp
          exact hcase parent hid hkind hclosed
        · exact .inl ⟨p, hp, hkind, hclosed⟩
      · rw [hw.point] at hp
        exact absurd ⟨p, hp, hclosed⟩ (hready parent).1
    · rw [hw.others j hj] at hc
      exact hc
  have hopensOf : ∀ j parent, Opens (w'.session j).pc parent → Opens (w.session j).pc parent := by
    intro j parent ho
    by_cases hj : j = i
    · subst hj
      rcases ho with ⟨c, x, hx, hchild, hopen⟩ | ⟨old, new, hx, hopen⟩
      · rw [hw.row?] at hx
        split_ifs at hx with hid
        · obtain rfl := Option.some.inj hx
          exact horder parent hchild hopen
        · exact .inl ⟨c, x, hx, hchild, hopen⟩
      · rw [hw.point] at hx
        exact absurd ⟨old, new, hx, hopen⟩ (hready parent).2
    · rw [hw.others j hj] at ho
      exact ho
  constructor
  · intro j hj
    by_cases hji : j = i
    · subst hji
      rw [hw.writes, hw.written, h.writes j hw.before]
      rfl
    · rw [hw.others j hji]
      exact h.writes j ((hw.running_iff j).mp hj)
  · intro j hj id x hx
    by_cases hji : j = i
    · subst hji
      rw [hw.row?] at hx
      split_ifs at hx with hid
      · rw [← hid]
        exact hw.held
      · exact hw.kept _ _ (h.locked j hw.before id x hx) hj
    · rw [hw.others j hji] at hx
      exact hw.kept _ _ (h.locked j ((hw.running_iff j).mp hj) id x hx) hj
  · intro j hj id p hp hkind
    rw [hw.rows]
    by_cases hji : j = i
    · subst hji
      rw [hw.row?] at hp
      split_ifs at hp with hid
      · obtain rfl := Option.some.inj hp
        subst hid
        exact hwas hkind
      · exact h.cases j hw.before id p hp hkind
    · rw [hw.others j hji] at hp
      exact h.cases j ((hw.running_iff j).mp hj) id p hp hkind
  · intro j hj
    by_cases hji : j = i
    · subst hji
      rw [hw.point]
      exact hpoint
    · rw [hw.others j hji]
      refine (h.points j ((hw.running_iff j).mp hj)).mono ?_ ?_
      · intro k hk
        exact hw.kept k j hk hj
      · intro id _
        rw [hview j hji]
  · intro parent
    rw [hw.rows]
    exact h.noOrphan parent
  · intro j hj parent hc
    have hold := hclosesOf j parent hc
    have hrun := (hw.running_iff j).mp hj
    by_cases hji : j = i
    · subst hji
      rintro ⟨c, x, hx, hchild, hopen⟩
      rw [hw.view] at hx
      split_ifs at hx with hid
      · obtain rfl := Option.some.inj hx
        exact h.closes_not_opens hrun hold (horder parent hchild hopen)
      · exact h.closes j hrun parent hold ⟨c, x, hx, hchild, hopen⟩
    · rw [hview j hji]
      exact h.closes j hrun parent hold
  · intro j hj parent ho
    have hold := hopensOf j parent ho
    have hrun := (hw.running_iff j).mp hj
    by_cases hji : j = i
    · subst hji
      rintro ⟨p, hp, hkind, hclosed⟩
      rw [hw.view] at hp
      split_ifs at hp with hid
      · obtain rfl := Option.some.inj hp
        exact h.closes_not_opens hrun (hcase parent hid hkind hclosed) hold
      · exact h.opens j hrun parent hold ⟨p, hp, hkind, hclosed⟩
    · rw [hview j hji]
      exact h.opens j hrun parent hold
  · intro j k hjk hj hk parent hc ho
    exact h.apart j k hjk ((hw.running_iff j).mp hj) ((hw.running_iff k).mp hk) parent
      (hclosesOf j parent hc) (hopensOf k parent ho)
  · intro S parent
    by_cases hS : S i
    · by_cases hothers : OthersPending w i S parent
      · obtain ⟨j, hji, hj, hrun, hpend⟩ := hothers
        refine .inr ⟨j, hj, (hw.running_iff j).mpr hrun, ?_⟩
        rw [hw.others j hji]
        exact hpend
      · rcases h.rolled S parent with hfine | ⟨j, hj, hrun, hpend⟩
        · rcases hrolled S parent hS hothers hfine with hfine' | hpend
          · exact .inl hfine'
          · exact .inr ⟨i, hS, hw.after, hpend⟩
        · by_cases hji : j = i
          · subst hji
            rcases hpending parent with hnot | hfine
            · exact absurd hpend hnot
            · exact .inl (hfine S hS)
          · exact absurd ⟨j, hji, hj, hrun, hpend⟩ hothers
    · have hok : FamilyOk (Merged w' S) parent ↔ FamilyOk (Merged w S) parent := by
        unfold FamilyOk
        simp only [merged_writes_ne hw hS]
      rw [hok]
      rcases h.rolled S parent with hfine | ⟨j, hj, hrun, hpend⟩
      · exact .inl hfine
      · have hji : j ≠ i := by
          rintro rfl
          exact hS hj
        refine .inr ⟨j, hj, (hw.running_iff j).mpr hrun, ?_⟩
        rw [hw.others j hji]
        exact hpend

theorem FamilyInv.writes_case (h : FamilyInv w) (hw : Writes w w' i e .ready)
    (hpoint : (w.session i).pc.point = .writeCase e) : FamilyInv w' := by
  have hpt := h.points i hw.before
  rw [hpoint] at hpt
  obtain ⟨hkind, ⟨p, hp, hpkind, hpopen⟩, _⟩ : HoldsCase w i e := hpt
  have hmissing : ∀ parent, ¬e.IsChildOf parent := by
    rintro parent ⟨hchild, _⟩
    rw [hkind] at hchild
    cases hchild
  apply h.writes_row hw
  · trivial
  · intro _
    rw [h.get?_view hw.before] at hp
    cases hrow : (w.session i).pc.row? e.id with
    | none =>
      rw [hrow, Option.none_or] at hp
      exact ⟨p, hp, hpkind, hpopen⟩
    | some x =>
      rw [hrow] at hp
      obtain rfl := Option.some.inj hp
      obtain ⟨q, hq, hqkind, hqopen⟩ := h.cases i hw.before e.id x hrow hpkind
      exact ⟨q, hq, hqkind, fun hopen => hqopen (hpopen hopen)⟩
  · intro parent
    constructor
    · rintro ⟨_, heq, _⟩
      cases heq
    · rintro ⟨_, _, heq, _⟩
      cases heq
  · intro parent hid _ hclosed
    exact .inr ⟨e, hpoint, hid, hclosed⟩
  · intro parent hchild _
    exact absurd hchild (hmissing parent)
  · intro parent
    by_cases hpend : Pending (w.session i).pc parent
    · right
      intro S hS q hq _ _ _
      unfold Pending at hpend
      rw [hpoint] at hpend
      rw [h.merged_writes hw hS, if_pos hpend.1] at hq
      rw [hq]
      exact hpend.2
    · exact .inl hpend
  · intro S parent hS _ hfine
    left
    -- the row before is a case too, so that the work orders are the same
    have hpmerged : Merged w S e.id p := h.merged_of_view hw.before hS hp fun j _ => h.untouched hw.free j
    have hchildren : ∀ c x, x.IsChildOf parent → (Merged w' S c x ↔ Merged w S c x) := by
      intro c x hchild
      rw [h.merged_writes hw hS]
      split_ifs with hid
      · constructor
        · rintro rfl
          exact absurd hchild (hmissing parent)
        · intro hx
          subst hid
          have hchildkind := hchild.1
          rw [← h.merged_unique hpmerged hx, hpkind] at hchildkind
          cases hchildkind
      · exact Iff.rfl
    intro q hq hqkind hex hall hqopen
    obtain ⟨c, x, hx, hchild⟩ := hex
    have hold : ∀ q', Merged w S parent q' → q'.kind = .case → ¬q'.IsOpen := by
      intro q' hq' hkind'
      apply hfine q' hq' hkind' ⟨c, x, (hchildren c x hchild).mp hx, hchild⟩
      intro c' x' hx' hchild'
      exact hall c' x' ((hchildren c' x' hchild').mpr hx') hchild'
    rw [h.merged_writes hw hS] at hq
    split_ifs at hq with hid
    · subst hid
      rw [hq] at hqopen
      exact hold p hpmerged hpkind (hpopen hqopen)
    · exact hold q hq hqkind hqopen

/-- The work order keeps its parent and its category, or has no parent to roll up. -/
theorem same_category_of_not_rollsUp {old new : Entity}
    (hroll : rollsUp (some old) new ≠ some parent) (hchild : new.parentTicketId = some parent) :
    old.columns.statusCategory = new.columns.statusCategory := by
  by_contra hne
  apply hroll
  simp only [rollsUp, if_neg hne]
  exact hchild

/-- The rollup law after the write of a work order that the rollup is not asked about. -/
theorem FamilyInv.familyOk_order (h : FamilyInv w) (hw : Writes w w' i e next)
    {old : Option Entity} (hkind : e.kind = .workOrder)
    (hseen : ∀ o, old = some o → o.id = e.id ∧ o.kind = .workOrder ∧
      (w.view i).entities.get? o.id = some o)
    (hfresh : old = none → (w.view i).entities.get? e.id = none)
    (hmoves : ∀ o, old = some o → o.parentTicketId ≠ e.parentTicketId →
      LeavesWell w i o ∧ ArrivesWell w i o e)
    (hS : S i) (hroll : rollsUp old e ≠ some parent)
    (hnobody : ¬OthersPending w i S parent) (hfine : FamilyOk (Merged w S) parent) :
    FamilyOk (Merged w' S) parent := by
  have hiff := h.merged_writes hw hS
  have huntouched : Untouched w i e.id := h.untouched hw.free
  intro p hp hpkind hex hall
  have hpid : e.id ≠ parent := by
    rintro rfl
    rw [hiff, if_pos rfl] at hp
    rw [hp, hkind] at hpkind
    cases hpkind
  rw [hiff, if_neg hpid] at hp
  -- another work order of the case is one in both states
  have hother : ∀ c x, c ≠ e.id → (Merged w' S c x ↔ Merged w S c x) := by
    intro c x hc
    rw [hiff, if_neg fun heq => hc heq.symm]
  have hmine : Merged w' S e.id e := by
    rw [hiff, if_pos rfl]
  cases old with
  | none =>
    have hnot : ¬e.IsChildOf parent := fun hchild => hroll hchild.2
    have hgone : ∀ x, ¬Merged w S e.id x := by
      rintro x (⟨j, _, hrun, hrow⟩ | ⟨_, hrow⟩)
      · by_cases hji : j = i
        · subst hji
          have hview := h.view_of_row hrun hrow
          rw [hfresh rfl] at hview
          cases hview
        · rw [huntouched j hji hrun] at hrow
          cases hrow
      · have hview := hfresh rfl
        rw [h.get?_view hw.before, Option.or_eq_none_iff, hrow] at hview
        cases hview.2
    apply hfine p hp hpkind
    · obtain ⟨c, x, hx, hchild⟩ := hex
      refine ⟨c, x, (hother c x ?_).mp hx, hchild⟩
      rintro rfl
      rw [hiff, if_pos rfl] at hx
      rw [hx] at hchild
      exact hnot hchild
    · intro c x hx hchild
      refine hall c x ((hother c x ?_).mpr hx) hchild
      rintro rfl
      exact hgone x hx
  | some o =>
    obtain ⟨hoid, hokind, hoview⟩ := hseen o rfl
    rw [hoid] at hoview
    have homerged : Merged w S e.id o := h.merged_of_view hw.before hS hoview fun j _ => huntouched j
    by_cases hnew : e.IsChildOf parent
    · have hsame := same_category_of_not_rollsUp hroll hnew.2
      have heclosed : ¬e.IsOpen := hall e.id e hmine hnew
      have hoclosed : ¬o.IsOpen := by
        unfold Entity.IsOpen
        rw [hsame]
        exact heclosed
      have hallold : ∀ c x, Merged w S c x → x.IsChildOf parent → ¬x.IsOpen := by
        intro c x hx hchild
        by_cases hc : c = e.id
        · subst hc
          rw [← h.merged_unique homerged hx]
          exact hoclosed
        · exact hall c x ((hother c x hc).mpr hx) hchild
      by_cases hstays : o.parentTicketId = e.parentTicketId
      · exact hfine p hp hpkind ⟨e.id, o, homerged, hokind, hstays.trans hnew.2⟩ hallold
      · rcases (hmoves o rfl hstays).2 parent hnew.2 heclosed hsame with
          ⟨c, x, _, hx, hchild, hfree⟩ | hsettled
        · exact hfine p hp hpkind ⟨c, x, h.merged_of_leftAlone hw.before hS hx hfree hnobody, hchild⟩
            hallold
        · obtain ⟨k, _, hrun, hpview⟩ := h.view_of_merged hw.before hS hp
          obtain ⟨q, hq, _, hqclosed⟩ := hsettled k hrun
          rw [hpview] at hq
          obtain rfl := Option.some.inj hq
          exact hqclosed
    · have hexold : ∃ c x, c ≠ e.id ∧ Merged w S c x ∧ x.IsChildOf parent := by
        obtain ⟨c, x, hx, hchild⟩ := hex
        have hc : c ≠ e.id := by
          rintro rfl
          rw [h.merged_unique_writes hw hS hx] at hchild
          exact hnew hchild
        exact ⟨c, x, hc, (hother c x hc).mp hx, hchild⟩
      obtain ⟨c, x, hc, hx, hchild⟩ := hexold
      apply hfine p hp hpkind ⟨c, x, hx, hchild⟩
      intro c' x' hx' hchild'
      by_cases hc' : c' = e.id
      · -- the work order that is moved away
        subst hc'
        obtain rfl := h.merged_unique homerged hx'
        intro hopen
        have hmoved : o.parentTicketId ≠ e.parentTicketId := by
          intro heq
          exact hnew ⟨hkind, heq.symm.trans hchild'.2⟩
        rcases (hmoves o rfl hmoved).1 parent hchild'.2 hopen with
          ⟨d, y, hd, hy, hychild, hyopen, hfree⟩ | halone
        · rw [hoid] at hd
          have hymerged : Merged w S d y := h.merged_of_leftAlone hw.before hS hy hfree hnobody
          exact hall d y ((hother d y hd).mpr hymerged) hychild hyopen
        · obtain ⟨k, _, hrun, hxview⟩ := h.view_of_merged hw.before hS hx
          have heq := halone k hrun c x hxview hchild
          rw [hoid] at heq
          exact hc heq
      · exact hall c' x' ((hother c' x' hc').mpr hx') hchild'

theorem FamilyInv.writes_order (h : FamilyInv w) {old : Option Entity}
    (hw : Writes w w' i e (rollupPoint old e))
    (hpoint : (w.session i).pc.point = .writeOrder old e)
    (hfresh : old = none → (w.view i).entities.get? e.id = none)
    (hseparate : Separate w i) : FamilyInv w' := by
  have hpt := h.points i hw.before
  rw [hpoint] at hpt
  obtain ⟨hkind, hseen⟩ : HoldsOrder w i old e := hpt
  have hmoves : ∀ o, old = some o → o.parentTicketId ≠ e.parentTicketId →
      LeavesWell w i o ∧ ArrivesWell w i o e := by
    rintro o rfl
    have hsep := hseparate hw.before
    rw [hpoint] at hsep
    exact hsep
  apply h.writes_row hw
  · unfold rollupPoint
    cases rollsUp old e with
    | none => trivial
    | some parent => trivial
  · intro hcase
    rw [hkind] at hcase
    cases hcase
  · intro parent
    unfold rollupPoint
    cases rollsUp old e with
    | none => simp [AboutToClose, AboutToOpen]
    | some parent => simp [AboutToClose, AboutToOpen]
  · intro parent _ hcase
    rw [hkind] at hcase
    cases hcase
  · intro parent hchild hopen
    exact .inr ⟨old, e, hpoint, hchild, hopen⟩
  · intro parent
    left
    unfold Pending
    rw [hpoint]
    exact not_false
  · intro S parent hS hnobody hfine
    by_cases hroll : rollsUp old e = some parent
    · right
      unfold Pending
      rw [hw.point]
      unfold rollupPoint
      rw [hroll]
    · left
      refine h.familyOk_order hw hkind ?_ hfresh hmoves hS hroll hnobody hfine
      intro o ho
      obtain ⟨hid, hokind, hview, _⟩ := hseen o ho
      exact ⟨hid, hokind, hview⟩

end Write

/-! ## The end of a transaction -/

theorem Ends.running_iff (h : Ends w w' i) (j : ι) : Running w' j ↔ j ≠ i ∧ Running w j := by
  by_cases hj : j = i
  · subst hj
    exact iff_of_false h.after fun hne => hne.1 rfl
  · rw [h.toFrame.running_iff hj]
    exact (and_iff_right hj).symm

theorem Ends.still (h : Ends w w' i) {j : ι} (hj : Running w' j) :
    j ≠ i ∧ Running w j ∧ w'.session j = w.session j := by
  obtain ⟨hji, hrun⟩ := (h.running_iff j).mp hj
  exact ⟨hji, hrun, h.others j hji⟩

/-- What the rows look like after the end of a transaction decides whether the invariant is kept. -/
theorem FamilyInv.ends (h : FamilyInv w) (hend : Ends w w' i)
    (hcases : ∀ j, j ≠ i → Running w j → ∀ id, w.locks (.row id) = some j →
      w'.rows.entities.get? id = w.rows.entities.get? id)
    (hview : ∀ j, j ≠ i → Running w j → ∀ id, w.locks (.row id) = some j →
      (w'.view j).entities.get? id = (w.view j).entities.get? id)
    (hnoOrphan : ∀ parent, SettledIn w'.rows parent → ¬OpenUnder w'.rows parent)
    (hcloses : ∀ j, j ≠ i → Running w j → ∀ parent, Closes (w.session j).pc parent →
      ¬OpenUnder (w'.view j) parent)
    (hopens : ∀ j, j ≠ i → Running w j → ∀ parent, Opens (w.session j).pc parent →
      ¬SettledIn (w'.view j) parent)
    (hrolled : ∀ (S : ι → Prop) parent, FamilyOk (Merged w' S) parent ∨
      ∃ j, S j ∧ j ≠ i ∧ Running w j ∧ Pending (w.session j).pc parent) : FamilyInv w' := by
  constructor
  · intro j hj
    obtain ⟨_, hrun, hsame⟩ := hend.still hj
    rw [hsame]
    exact h.writes j hrun
  · intro j hj id x hx
    obtain ⟨_, hrun, hsame⟩ := hend.still hj
    rw [hsame] at hx
    exact hend.kept _ _ (h.locked j hrun id x hx) hj
  · intro j hj id p hp hkind
    obtain ⟨hji, hrun, hsame⟩ := hend.still hj
    rw [hsame] at hp
    rw [hcases j hji hrun id (h.locked j hrun id p hp)]
    exact h.cases j hrun id p hp hkind
  · intro j hj
    obtain ⟨hji, hrun, hsame⟩ := hend.still hj
    rw [hsame]
    refine (h.points j hrun).mono ?_ (hview j hji hrun)
    intro k hk
    exact hend.kept k j hk hj
  · exact hnoOrphan
  · intro j hj parent hc
    obtain ⟨hji, hrun, hsame⟩ := hend.still hj
    rw [hsame] at hc
    exact hcloses j hji hrun parent hc
  · intro j hj parent ho
    obtain ⟨hji, hrun, hsame⟩ := hend.still hj
    rw [hsame] at ho
    exact hopens j hji hrun parent ho
  · intro j k hjk hj hk parent hc ho
    obtain ⟨_, hrunj, hsamej⟩ := hend.still hj
    obtain ⟨_, hrunk, hsamek⟩ := hend.still hk
    rw [hsamej] at hc
    rw [hsamek] at ho
    exact h.apart j k hjk hrunj hrunk parent hc ho
  · intro S parent
    rcases hrolled S parent with hfine | ⟨j, hS, hji, hrun, hpend⟩
    · exact .inl hfine
    · refine .inr ⟨j, hS, (hend.running_iff j).mpr ⟨hji, hrun⟩, ?_⟩
      rw [hend.others j hji]
      exact hpend

theorem FamilyInv.aborts (h : FamilyInv w) (hend : Ends w w' i) (hrows : w'.rows = w.rows) :
    FamilyInv w' := by
  have hview : ∀ j, j ≠ i → w'.view j = w.view j := by
    intro j hj
    exact hend.toFrame.view_eq hrows hj
  apply h.ends hend
  · intro j _ _ id _
    rw [hrows]
  · intro j hji _ id _
    rw [hview j hji]
  · intro parent
    rw [hrows]
    exact h.noOrphan parent
  · intro j hji hrun parent hc
    rw [hview j hji]
    exact h.closes j hrun parent hc
  · intro j hji hrun parent ho
    rw [hview j hji]
    exact h.opens j hrun parent ho
  · intro S parent
    -- the merged states without the transaction
    have hmerged : ∀ id x, Merged w' S id x ↔ Merged w (fun j => S j ∧ j ≠ i) id x := by
      intro id x
      unfold Merged
      rw [hrows]
      apply or_congr
      · apply exists_congr
        intro j
        constructor
        · rintro ⟨hS, hj, hx⟩
          obtain ⟨hji, hrun, hsame⟩ := hend.still hj
          rw [hsame] at hx
          exact ⟨⟨hS, hji⟩, hrun, hx⟩
        · rintro ⟨⟨hS, hji⟩, hrun, hx⟩
          rw [← hend.others j hji] at hx
          exact ⟨hS, (hend.running_iff j).mpr ⟨hji, hrun⟩, hx⟩
      · apply and_congr_left
        intro _
        constructor
        · intro hnone j hS hrun
          rw [← hend.others j hS.2]
          exact hnone j hS.1 ((hend.running_iff j).mpr ⟨hS.2, hrun⟩)
        · intro hnone j hS hj
          obtain ⟨hji, hrun, hsame⟩ := hend.still hj
          rw [hsame]
          exact hnone j ⟨hS, hji⟩ hrun
    rcases h.rolled (fun j => S j ∧ j ≠ i) parent with hfine | ⟨j, ⟨hS, hji⟩, hrun, hpend⟩
    · left
      unfold FamilyOk
      simp only [hmerged]
      exact hfine
    · exact .inr ⟨j, hS, hji, hrun, hpend⟩

theorem FamilyInv.view_commits (h : FamilyInv w) (hend : Ends w w' i)
    (hrows : w'.rows = w.view i) (hj : Running w j) (hji : j ≠ i) (id : String) :
    (w'.view j).entities.get? id =
      ((w.session i).pc.row? id).or ((w.view j).entities.get? id) := by
  have hnew : (w'.view j).entities.get? id =
      ((w.session j).pc.row? id).or ((w.view i).entities.get? id) := by
    unfold World.view
    rw [hend.others j hji, hrows, h.writes j hj]
    exact Table.get?_overlay _ _ _
  rw [hnew, h.get?_view hend.before, h.get?_view hj]
  cases hmine : (w.session i).pc.row? id with
  | none => rfl
  | some x => rw [h.untouched (.inl (h.locked i hend.before id x hmine)) j hji hj, Option.none_or]; rfl

theorem FamilyInv.commits (h : FamilyInv w) (hend : Ends w w' i) (hrows : w'.rows = w.view i)
    (hpoint : (w.session i).pc.point = .ready) : FamilyInv w' := by
  -- a row that another transaction sees is the committed one, or was seen before
  have hseen : ∀ j, Running w j → j ≠ i → ∀ id x, (w'.view j).entities.get? id = some x →
      (w.session i).pc.row? id = some x ∨ (w.view j).entities.get? id = some x := by
    intro j hj hji id x hx
    rw [h.view_commits hend hrows hj hji] at hx
    cases hmine : (w.session i).pc.row? id with
    | none =>
      rw [hmine] at hx
      exact .inr hx
    | some y =>
      rw [hmine] at hx
      exact .inl hx
  have hmine : ∀ j, j ≠ i → ∀ id, w.locks (.row id) = some j → (w.session i).pc.row? id = none :=
    fun j hji id hid => h.untouched (.inl hid) i (fun heq => hji heq.symm) hend.before
  apply h.ends hend
  · intro j hji _ id hid
    rw [hrows, h.get?_view hend.before, hmine j hji id hid, Option.none_or]
  · intro j hji hrun id hid
    rw [h.view_commits hend hrows hrun hji, hmine j hji id hid, Option.none_or]
  · intro parent hsettled
    rw [hrows] at hsettled ⊢
    exact h.view_noOrphan hend.before hsettled
  · rintro j hji hrun parent hc ⟨c, x, hx, hchild, hopen⟩
    rcases hseen j hrun hji c x hx with hmine | hold
    · exact h.apart j i hji hrun hend.before parent hc (.inl ⟨c, x, hmine, hchild, hopen⟩)
    · exact h.closes j hrun parent hc ⟨c, x, hold, hchild, hopen⟩
  · rintro j hji hrun parent ho ⟨p, hp, hkind, hclosed⟩
    rcases hseen j hrun hji parent p hp with hmine | hold
    · exact h.apart i j (fun heq => hji heq.symm) hend.before hrun parent
        (.inl ⟨p, hmine, hkind, hclosed⟩) ho
    · exact h.opens j hrun parent ho ⟨p, hold, hkind, hclosed⟩
  · intro S parent
    -- the merged states with the transaction
    have hmerged : ∀ id x, Merged w' S id x ↔ Merged w (fun j => S j ∨ j = i) id x := by
      intro id x
      constructor
      · rintro (⟨j, hS, hj, hx⟩ | ⟨hnone, hx⟩)
        · obtain ⟨_, hrun, hsame⟩ := hend.still hj
          rw [hsame] at hx
          exact .inl ⟨j, .inl hS, hrun, hx⟩
        · rw [hrows, h.get?_view hend.before] at hx
          cases hmine : (w.session i).pc.row? id with
          | some y =>
            rw [hmine] at hx
            obtain rfl := Option.some.inj hx
            exact .inl ⟨i, .inr rfl, hend.before, hmine⟩
          | none =>
            rw [hmine, Option.none_or] at hx
            refine .inr ⟨?_, hx⟩
            intro j hS hrun
            by_cases hji : j = i
            · rw [hji]
              exact hmine
            · rw [← hend.others j hji]
              exact hnone j (hS.resolve_right hji) ((hend.running_iff j).mpr ⟨hji, hrun⟩)
      · rintro (⟨j, hS, hrun, hx⟩ | ⟨hnone, hx⟩)
        · by_cases hji : j = i
          · subst hji
            refine .inr ⟨?_, ?_⟩
            · intro k _ hk
              obtain ⟨hkj, hrunk, hsame⟩ := hend.still hk
              rw [hsame]
              exact h.untouched (.inl (h.locked j hrun id x hx)) k hkj hrunk
            · rw [hrows]
              exact h.view_of_row hrun hx
          · rw [← hend.others j hji] at hx
            exact .inl ⟨j, hS.resolve_right hji, (hend.running_iff j).mpr ⟨hji, hrun⟩, hx⟩
        · refine .inr ⟨?_, ?_⟩
          · intro j hS hj
            obtain ⟨_, hrun, hsame⟩ := hend.still hj
            rw [hsame]
            exact hnone j (.inl hS) hrun
          · rw [hrows, h.get?_view hend.before, hnone i (.inr rfl) hend.before]
            exact hx
    rcases h.rolled (fun j => S j ∨ j = i) parent with hfine | ⟨j, hS, hrun, hpend⟩
    · left
      unfold FamilyOk
      simp only [hmerged]
      exact hfine
    · by_cases hji : j = i
      · subst hji
        unfold Pending at hpend
        rw [hpoint] at hpend
        exact absurd hpend not_false
      · exact .inr ⟨j, hS.resolve_right hji, hji, hrun, hpend⟩

end Statements

end Prequest.Cases
