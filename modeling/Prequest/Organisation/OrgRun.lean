import Prequest.Organisation.OrgForest

/-!
# Every interleaving of changes of organisations

The lock of a tenant makes the changes of its tree follow each other: what a walk has
found stays as it is until the transaction of the walk ends. So the committed rows are
forests in every interleaving. They keep within the depth as long as no node is moved
to where what is below it does not fit.

* `orgForest_run`: the committed rows of every interleaving.
* `depthLimit_fails`: a subtree that is moved to where it does not fit.
-/

namespace Prequest.Organisation

open Prequest.Lib Prequest.Lib.ReadCommitted

abbrev OrgWorld (ι : Type) := World (List OrgNode) OrgLock OrgPc ι

/-! ## The invariant -/

section

variable (nodes : List OrgNode) (c : RowChange)

def Target : Prop := c.inserts = false → Known nodes c.new.id

/-- The walk has come to `cursor`, and not to the node. -/
def Walked (cursor : Option Nat) (depth : Nat) : Prop :=
  ∃ p, c.new.parentId = some p ∧ (Known nodes p →
    up (parentOf nodes) depth (some p) = cursor ∧
      ∀ e, e < depth → up (parentOf nodes) e (some p) ≠ some c.new.id)

/-- The walk has ended. -/
def Passed : Prop :=
  ∃ p, c.new.parentId = some p ∧ (Known nodes p → Clear nodes c.new.id (some p))

end

/-- The triggers have let the change through. -/
structure Accepted (nodes : List OrgNode) (c : RowChange) : Prop where
  clear : Clear nodes c.new.id c.new.parentId
  parent : ∀ p, c.new.parentId = some p → Known nodes p

/-- What a transaction has found out, from the nodes of the tenants as it sees them, and the tenants it
has locked. -/
def PointInv (seen : Nat → List OrgNode) (holds : Nat → Prop) : OrgPoint → Prop
  | .statement => True
  | .advisory c => Target (seen c.new.tenantId) c
  | .walk c cursor depth =>
      Target (seen c.new.tenantId) c ∧ holds c.new.tenantId ∧
        Walked (seen c.new.tenantId) c cursor depth
  | .tenantMatch c =>
      Target (seen c.new.tenantId) c ∧ holds c.new.tenantId ∧ Passed (seen c.new.tenantId) c
  | .store c =>
      Target (seen c.new.tenantId) c ∧ holds c.new.tenantId ∧ Accepted (seen c.new.tenantId) c

theorem PointInv.mono {seen seen' : Nat → List OrgNode} {holds holds' : Nat → Prop}
    {point : OrgPoint} (h : PointInv seen holds point)
    (hholds : ∀ tenantId, holds tenantId → holds' tenantId)
    (hsame : ∀ tenantId, holds tenantId → seen' tenantId = seen tenantId)
    (hknown : ∀ tenantId id, Known (seen tenantId) id → Known (seen' tenantId) id) :
    PointInv seen' holds' point := by
  have htarget : ∀ c : RowChange, Target (seen c.new.tenantId) c → Target (seen' c.new.tenantId) c :=
    fun c ht hinserts => hknown _ _ (ht hinserts)
  cases point with
  | statement => trivial
  | advisory c => exact htarget c h
  | walk c cursor depth =>
    obtain ⟨ht, hheld, hwalked⟩ := h
    refine ⟨htarget c ht, hholds _ hheld, ?_⟩
    rw [hsame _ hheld]
    exact hwalked
  | tenantMatch c =>
    obtain ⟨ht, hheld, hpassed⟩ := h
    refine ⟨htarget c ht, hholds _ hheld, ?_⟩
    rw [hsame _ hheld]
    exact hpassed
  | store c =>
    obtain ⟨ht, hheld, haccepted⟩ := h
    refine ⟨htarget c ht, hholds _ hheld, ?_⟩
    rw [hsame _ hheld]
    exact haccepted

section Invariant

variable {ι : Type}

/-- The transaction has not ended. -/
def Running (w : OrgWorld ι) (i : ι) : Prop := (w.session i).phase = .running

def HoldsTenant (w : OrgWorld ι) (i : ι) (tenantId : Nat) : Prop :=
  w.locks (.tenant tenantId) = some i

def nodesSeen (w : OrgWorld ι) (i : ι) (tenantId : Nat) : List OrgNode := nodesOf tenantId (w.view i)

/-- The changes that a transaction has made so far, under its locks. -/
structure Holds (w : OrgWorld ι) (i : ι) (changes : List RowChange) : Prop where
  writes : (w.session i).writes = fun rows => applyChanges rows changes
  tenants : ∀ c ∈ changes, HoldsTenant w i c.new.tenantId
  nodeIds : ∀ c ∈ changes, c.inserts = true → w.locks (.nodeId c.new.id) = some i

/-- What holds of a transaction in progress. -/
structure SessionInv (bounded : Prop) (w : OrgWorld ι) (i : ι) : Prop where
  changes : ∃ changes, Holds w i changes
  sound : Sound bounded (w.view i)
  point : PointInv (nodesSeen w i) (HoldsTenant w i) (w.session i).pc.point

/-- The rows are sound as committed, and as every transaction sees them. -/
structure OrgInv (bounded : Prop) (w : OrgWorld ι) : Prop where
  committed : Sound bounded w.rows
  sessions : ∀ i, Running w i → SessionInv bounded w i

/-! ## The others go on -/

variable {w w' : OrgWorld ι} {i j : ι} {bounded : Prop}

theorem known_nodesOf_iff {rows : List OrgNode} {tenantId id : Nat} :
    Known (nodesOf tenantId rows) id ↔ (id, tenantId) ∈ rows.map OrgNode.key := by
  constructor
  · rintro ⟨r, hr, rfl⟩
    obtain ⟨hmem, rfl⟩ := mem_nodesOf.mp hr
    exact List.mem_map_of_mem hmem
  · intro hkey
    obtain ⟨r, hr, heq⟩ := List.mem_map.mp hkey
    obtain ⟨hid, htenant⟩ := Prod.ext_iff.mp heq
    exact ⟨r, mem_nodesOf.mpr ⟨hr, htenant⟩, hid⟩

theorem Holds.view_eq {changes : List RowChange} (h : Holds w i changes) :
    w.view i = applyChanges w.rows changes := by
  unfold World.view
  rw [h.writes]

theorem SessionInv.kept (h : SessionInv bounded w j) (hsession : w'.session j = w.session j)
    (hkept : ∀ k, w.locks k = some j → w'.locks k = some j) (hrows : w'.rows = w.rows) :
    SessionInv bounded w' j := by
  have hview : w'.view j = w.view j := by
    unfold World.view
    rw [hsession, hrows]
  refine ⟨?_, hview ▸ h.sound, ?_⟩
  · obtain ⟨changes, hwrites, htenants, hnodeIds⟩ := h.changes
    refine ⟨changes, hsession ▸ hwrites, fun c hc => hkept _ (htenants c hc), ?_⟩
    intro c hc hinserts
    exact hkept _ (hnodeIds c hc hinserts)
  · rw [hsession]
    refine h.point.mono (fun tenantId => hkept _) ?_ ?_
    · intro tenantId _
      unfold nodesSeen
      rw [hview]
    · intro tenantId id hknown
      unfold nodesSeen
      rwa [hview]

theorem disjoint_inserted {mine others : List RowChange} (hi : Holds w i mine)
    (hj : Holds w j others) (hne : j ≠ i) :
    List.Disjoint ((insertedKeys mine).map Prod.fst) ((insertedKeys others).map Prod.fst) := by
  have hlock : ∀ {k : ι} {changes : List RowChange}, Holds w k changes →
      ∀ id ∈ (insertedKeys changes).map Prod.fst, w.locks (.nodeId id) = some k := by
    intro k changes hk id hid
    obtain ⟨key, hkey, rfl⟩ := List.mem_map.mp hid
    obtain ⟨c, hc, rfl⟩ := List.mem_map.mp hkey
    obtain ⟨hmem, hinserts⟩ := List.mem_filter.mp hc
    exact hk.nodeIds c hmem hinserts
  intro id hmine hother
  have heq := (hlock hi id hmine).symm.trans (hlock hj id hother)
  exact hne (Option.some.inj heq).symm

/-- When a transaction commits, another one sees its own tenants as before, and of the others what has
been committed. -/
theorem OrgInv.kept_commit (h : OrgInv bounded w) (hi : Running w i) (hj : Running w j) (hne : j ≠ i)
    (hsession : w'.session j = w.session j)
    (hkept : ∀ k, w.locks k = some j → w'.locks k = some j) (hrows : w'.rows = w.view i) :
    SessionInv bounded w' j := by
  obtain ⟨⟨mine, hmine⟩, hsoundi, _⟩ := h.sessions i hi
  obtain ⟨⟨others, hothers⟩, hsoundj, hpoint⟩ := h.sessions j hj
  have hview : w'.view j = applyChanges (w.view i) others := by
    unfold World.view
    rw [hsession, hrows, hothers.writes]
    rfl
  have hlocked : ∀ tenantId, HoldsTenant w j tenantId →
      nodesOf tenantId (w'.view j) = nodesOf tenantId (w.view j) := by
    intro tenantId hheld
    have hrest : nodesOf tenantId (w.view i) = nodesOf tenantId w.rows := by
      rw [hmine.view_eq]
      refine nodesOf_applyChanges_other fun c hc htenant => ?_
      have hown := hmine.tenants c hc
      rw [htenant] at hown
      exact hne (Option.some.inj (hheld.symm.trans hown))
    rw [hview, nodesOf_applyChanges, hrest, ← nodesOf_applyChanges, hothers.view_eq]
  have hknown : ∀ tenantId id, Known (nodesOf tenantId (w.view j)) id →
      Known (nodesOf tenantId (w'.view j)) id := by
    intro tenantId id hold
    rw [known_nodesOf_iff, hothers.view_eq, keys_applyChanges] at hold
    rw [known_nodesOf_iff, hview, keys_applyChanges, hmine.view_eq, keys_applyChanges]
    rcases List.mem_append.mp hold with hrow | hinserted
    · exact List.mem_append_left _ (List.mem_append_left _ hrow)
    · exact List.mem_append_right _ hinserted
  refine ⟨⟨others, hsession ▸ hothers.writes, fun c hc => hkept _ (hothers.tenants c hc), ?_⟩,
    ⟨?_, fun tenantId => ?_⟩, ?_⟩
  · intro c hc hinserts
    exact hkept _ (hothers.nodeIds c hc hinserts)
  · -- the ids that were committed, mine, and the other's
    have hidsi := hsoundi.ids
    have hidsj := hsoundj.ids
    rw [hothers.view_eq, ids_eq_keys, keys_applyChanges, List.map_append] at hidsj
    rw [hview, ids_eq_keys, keys_applyChanges, List.map_append, ← ids_eq_keys]
    refine hidsi.append (List.nodup_append'.mp hidsj).2.1 ?_
    rw [hmine.view_eq, ids_eq_keys, keys_applyChanges, List.map_append]
    exact List.disjoint_append_left.mpr
      ⟨(List.nodup_append'.mp hidsj).2.2, disjoint_inserted hmine hothers hne⟩
  · by_cases hof : ∃ c ∈ others, c.new.tenantId = tenantId
    · obtain ⟨c, hc, rfl⟩ := hof
      rw [hlocked _ (hothers.tenants c hc)]
      exact hsoundj.tenants _
    · rw [hview, nodesOf_applyChanges_other fun c hc htenant => hof ⟨c, hc, htenant⟩]
      exact hsoundi.tenants tenantId
  · rw [hsession]
    exact hpoint.mono (fun tenantId => hkept _) hlocked hknown

end Invariant

/-! ## One query -/

section Step

variable {ι : Type} [DecidableEq ι] {statements : ι → List OrgStatement} {w : OrgWorld ι} {i : ι}
  {bounded : Prop}

/-- One transaction executes its next query. -/
def orgStep (statements : ι → List OrgStatement) : OrgWorld ι → ι → OrgWorld ι :=
  step fun i => orgProgram (statements i)

theorem OrgInv.goes_on (h : OrgInv bounded w) (hrows : (orgStep statements w i).rows = w.rows)
    (hown : Running (orgStep statements w i) i → SessionInv bounded (orgStep statements w i) i) :
    OrgInv bounded (orgStep statements w i) := by
  refine ⟨hrows ▸ h.committed, fun j hj => ?_⟩
  by_cases hji : j = i
  · rw [hji] at hj ⊢
    exact hown hj
  · have hsession : (orgStep statements w i).session j = w.session j := step_session_ne w hji
    refine SessionInv.kept (h.sessions j ?_) hsession (fun k hk => lock_kept _ hk hj) hrows
    unfold Running at hj ⊢
    rwa [hsession] at hj

theorem OrgInv.aborts (h : OrgInv bounded w) (hi : Running w i)
    (hfree : w.waits i (orgLock (w.session i).pc) = false)
    (hexec : orgExec (w.session i).pc (w.view i) = .abort) :
    OrgInv bounded (orgStep statements w i) := by
  have hstep := step_abort (fun i => orgProgram (statements i)) hi hfree hexec
  apply h.goes_on
  · unfold orgStep
    rw [hstep]
  · intro hgoes
    unfold Running orgStep at hgoes
    rw [hstep] at hgoes
    simp [World.setSession] at hgoes

variable {pc : OrgPc} {write : List OrgNode → List OrgNode}

theorem OrgInv.commits (h : OrgInv bounded w) (hi : Running w i)
    (hfree : w.waits i (orgLock (w.session i).pc) = false)
    (hexec : orgExec (w.session i).pc (w.view i) = .commit pc id) :
    OrgInv bounded (orgStep statements w i) := by
  have hstep := step_commit (fun i => orgProgram (statements i)) hi hfree hexec
  have hrows : (orgStep statements w i).rows = w.view i := by
    unfold orgStep
    rw [hstep]
    rfl
  refine ⟨hrows ▸ (h.sessions i hi).sound, fun j hj => ?_⟩
  have hji : j ≠ i := by
    rintro rfl
    unfold Running orgStep at hj
    rw [hstep] at hj
    simp [World.setSession] at hj
  have hsession : (orgStep statements w i).session j = w.session j := step_session_ne w hji
  have hwas : Running w j := by
    unfold Running at hj ⊢
    rwa [hsession] at hj
  exact h.kept_commit hi hwas hji hsession (fun k hk => lock_kept _ hk hj) hrows

/-- What a query of a transaction in progress does to the transaction. -/
structure Goes (w w' : OrgWorld ι) (i : ι) (pc : OrgPc) (write : List OrgNode → List OrgNode) :
    Prop where
  rows : w'.rows = w.rows
  session : w'.session i =
    { phase := .running, pc := pc, writes := fun db => write ((w.session i).writes db) }
  kept : ∀ k, w.locks k = some i → w'.locks k = some i
  locked : ∀ k, orgLock (w.session i).pc = some k → w'.locks k = some i

theorem goes_step (hi : Running w i) (hfree : w.waits i (orgLock (w.session i).pc) = false)
    (hexec : orgExec (w.session i).pc (w.view i) = .next pc write) :
    Goes w (orgStep statements w i) i pc write := by
  have hstep := step_next (fun i => orgProgram (statements i)) hi hfree hexec
  have hsession : (orgStep statements w i).session i =
      { phase := .running, pc := pc, writes := fun db => write ((w.session i).writes db) } := by
    unfold orgStep
    rw [hstep]
    exact Function.update_self ..
  have hgoes : Running (orgStep statements w i) i := by
    unfold Running
    rw [hsession]
  refine ⟨?_, hsession, fun k hk => lock_kept _ hk hgoes, fun k hk => ?_⟩
  · unfold orgStep
    rw [hstep]
  · unfold orgStep
    rw [hstep]
    show w.acquire i (orgLock (w.session i).pc) k = some i
    rw [hk]
    exact if_pos rfl

omit [DecidableEq ι] in
theorem Goes.view_eq {w' : OrgWorld ι} (h : Goes w w' i pc write) :
    w'.view i = write (w.view i) := by
  unfold World.view
  rw [h.session, h.rows]

theorem OrgInv.reads (h : OrgInv bounded w) (hi : Running w i)
    (hfree : w.waits i (orgLock (w.session i).pc) = false) (pc : OrgPc)
    (hexec : orgExec (w.session i).pc (w.view i) = .next pc id)
    (hpoint : ∀ holds : Nat → Prop, (∀ tenantId, HoldsTenant w i tenantId → holds tenantId) →
      (∀ tenantId, orgLock (w.session i).pc = some (.tenant tenantId) → holds tenantId) →
      PointInv (nodesSeen w i) holds pc.point) : OrgInv bounded (orgStep statements w i) := by
  have hgoes : Goes w (orgStep statements w i) i pc id := goes_step hi hfree hexec
  have hview : (orgStep statements w i).view i = w.view i := hgoes.view_eq
  have hsame : nodesSeen (orgStep statements w i) i = nodesSeen w i := by
    unfold nodesSeen
    rw [hview]
  obtain ⟨⟨changes, hwrites, htenants, hnodeIds⟩, hsound, _⟩ := h.sessions i hi
  refine h.goes_on hgoes.rows fun _ => ⟨⟨changes, ?_, ?_, ?_⟩, hview ▸ hsound, ?_⟩
  · rw [hgoes.session]
    exact hwrites
  · exact fun c hc => hgoes.kept _ (htenants c hc)
  · exact fun c hc hinserts => hgoes.kept _ (hnodeIds c hc hinserts)
  · rw [hgoes.session, hsame]
    exact hpoint _ (fun tenantId => hgoes.kept _) fun tenantId => hgoes.locked _

theorem OrgInv.step_statement (h : OrgInv bounded w) (hi : Running w i)
    (hfree : w.waits i (orgLock (w.session i).pc) = false)
    (hpoint : (w.session i).pc.point = .statement) : OrgInv bounded (orgStep statements w i) := by
  cases hrest : (w.session i).pc.rest with
  | nil =>
    apply h.commits hi hfree
    simp only [orgExec, hpoint, hrest]
    rfl
  | cons next rest =>
    cases next with
    | insert node =>
      refine h.reads hi hfree ⟨.advisory ⟨node, true⟩, rest⟩ ?_ fun _ _ _ hinserts => ?_
      · simp only [orgExec, hpoint, hrest]
      · cases hinserts
    | setParent nodeId parentId =>
      cases hfound : lookup (w.view i) nodeId with
      | none =>
        refine h.reads hi hfree ⟨.statement, rest⟩ ?_ fun _ _ _ => trivial
        simp only [orgExec, hpoint, hrest, hfound]
      | some r =>
        refine h.reads hi hfree
          ⟨.advisory ⟨{ r with parentId := parentId }, false⟩, rest⟩ ?_ fun _ _ _ _ => ?_
        · simp only [orgExec, hpoint, hrest, hfound]
        · exact ⟨r, mem_nodesOf.mpr ⟨(mem_of_lookup hfound).1, rfl⟩, rfl⟩

variable {c : RowChange}

theorem OrgInv.step_advisory (h : OrgInv bounded w) (hi : Running w i)
    (hfree : w.waits i (orgLock (w.session i).pc) = false)
    (hpoint : (w.session i).pc.point = .advisory c) : OrgInv bounded (orgStep statements w i) := by
  have htarget := (h.sessions i hi).point
  rw [hpoint] at htarget
  have hlock : orgLock (w.session i).pc = some (.tenant c.new.tenantId) := by
    simp only [orgLock, hpoint]
  cases hparent : c.new.parentId with
  | none =>
    refine h.reads hi hfree ⟨.store c, (w.session i).pc.rest⟩ ?_ fun holds _ hlocked => ?_
    · simp only [orgExec, hpoint, hparent]
    · refine ⟨htarget, hlocked _ hlock, ⟨?_, ?_⟩, ?_⟩
      · intro e
        rw [hparent, up_none]
        exact nofun
      · rw [hparent, up_none]
      · intro p hp
        rw [hparent] at hp
        cases hp
  | some p =>
    by_cases hself : p = c.new.id
    · apply h.aborts hi hfree
      simp only [orgExec, hpoint, hparent, if_pos hself]
    · refine h.reads hi hfree ⟨.walk c (some p) 0, (w.session i).pc.rest⟩ ?_
        fun holds _ hlocked => ?_
      · simp only [orgExec, hpoint, hparent, if_neg hself]
      · exact ⟨htarget, hlocked _ hlock, p, hparent, fun _ => ⟨rfl, fun e he => nomatch he⟩⟩

theorem OrgInv.step_walk (h : OrgInv bounded w) (hi : Running w i)
    (hfree : w.waits i (orgLock (w.session i).pc) = false) {cursor : Option Nat}
    {depth : Nat} (hpoint : (w.session i).pc.point = .walk c cursor depth) :
    OrgInv bounded (orgStep statements w i) := by
  have hinv := (h.sessions i hi).point
  rw [hpoint] at hinv
  obtain ⟨htarget, hheld, p, hparent, hwalked⟩ := hinv
  have hsound := (h.sessions i hi).sound
  have hclosed := (hsound.tenants c.new.tenantId).closed
  by_cases hdepth : depth < maxDepth
  · cases hcursor : cursor with
    | none =>
      refine h.reads hi hfree ⟨.tenantMatch c, (w.session i).pc.rest⟩ ?_
        fun holds hkept _ => ?_
      · simp only [orgExec, hpoint, if_pos hdepth, hcursor]
      · refine ⟨htarget, hkept _ hheld, p, hparent, fun hknown => ?_⟩
        obtain ⟨hup, havoids⟩ := hwalked hknown
        rw [hcursor] at hup
        refine ⟨fun e => ?_, up_eq_none_of_le hup (Nat.le_sub_one_of_lt hdepth)⟩
        by_cases he : e < depth
        · exact havoids e he
        · rw [up_eq_none_of_le hup (Nat.le_of_not_lt he)]
          exact nofun
    | some a =>
      by_cases hfound : a = c.new.id
      · apply h.aborts hi hfree
        simp only [orgExec, hpoint, if_pos hdepth, hcursor, if_pos hfound]
      · refine h.reads hi hfree
          ⟨.walk c (parentOf (w.view i) a) (depth + 1), (w.session i).pc.rest⟩ ?_
          fun holds hkept _ => ?_
        · simp only [orgExec, hpoint, if_pos hdepth, hcursor, if_neg hfound]
        · refine ⟨htarget, hkept _ hheld, p, hparent, fun hknown => ?_⟩
          obtain ⟨hup, havoids⟩ := hwalked hknown
          rw [hcursor] at hup
          refine ⟨?_, fun e he => ?_⟩
          · rw [up_succ, hup, Option.bind_some]
            exact (parentOf_nodesOf hsound.ids (hclosed.known_up hknown hup)).symm
          · rcases Nat.lt_succ_iff_lt_or_eq.mp he with hlt | rfl
            · exact havoids e hlt
            · rw [hup]
              exact fun heq => hfound (Option.some.inj heq)
  · apply h.aborts hi hfree
    simp only [orgExec, hpoint, if_neg hdepth]

theorem OrgInv.step_tenantMatch (h : OrgInv bounded w) (hi : Running w i)
    (hfree : w.waits i (orgLock (w.session i).pc) = false)
    (hpoint : (w.session i).pc.point = .tenantMatch c) :
    OrgInv bounded (orgStep statements w i) := by
  have hinv := (h.sessions i hi).point
  rw [hpoint] at hinv
  obtain ⟨htarget, hheld, p, hparent, hpassed⟩ := hinv
  cases hfound : lookup (w.view i) p with
  | none =>
    apply h.aborts hi hfree
    simp only [orgExec, hpoint, hparent, Option.bind_some, hfound]
  | some parent =>
    by_cases htenant : parent.tenantId = c.new.tenantId
    · refine h.reads hi hfree ⟨.store c, (w.session i).pc.rest⟩ ?_ fun holds hkept _ => ?_
      · simp only [orgExec, hpoint, hparent, Option.bind_some, hfound, if_pos htenant]
      · obtain ⟨hmem, hid⟩ := mem_of_lookup hfound
        have hknown : Known (nodesSeen w i c.new.tenantId) p :=
          ⟨parent, mem_nodesOf.mpr ⟨hmem, htenant⟩, hid⟩
        refine ⟨htarget, hkept _ hheld, ?_, ?_⟩
        · rw [hparent]
          exact hpassed hknown
        · intro p' hp'
          obtain rfl := Option.some.inj (hparent.symm.trans hp')
          exact hknown
    · apply h.aborts hi hfree
      simp only [orgExec, hpoint, hparent, Option.bind_some, hfound, if_neg htenant]

/-- No node below one that is about to be moved comes too deep. -/
def Fits (w : OrgWorld ι) (i : ι) : Prop :=
  ∀ c, (w.session i).pc.point = .store c → c.inserts = false →
    SubtreeFits (w.view i) c.new.id c.new.parentId

omit [DecidableEq ι] in
theorem SubtreeFits.nodesSeen (h : SubtreeFits (w.view i) c.new.id c.new.parentId)
    (hsound : Sound bounded (w.view i)) (hknown : Known (nodesSeen w i c.new.tenantId) c.new.id)
    (hparent : ∀ p, c.new.parentId = some p → Known (nodesSeen w i c.new.tenantId) p) :
    SubtreeFits (nodesSeen w i c.new.tenantId) c.new.id c.new.parentId := by
  have hclosed := (hsound.tenants c.new.tenantId).closed
  intro a d hup
  have hbelow : Known (Organisation.nodesSeen w i c.new.tenantId) a := by
    by_contra hno
    cases d with
    | zero =>
      obtain rfl := Option.some.inj hup
      exact hno hknown
    | succ d =>
      have hone : up (parentOf (Organisation.nodesSeen w i c.new.tenantId)) 1 (some a) = none :=
        parentOf_of_not_known hno
      rw [up_eq_none_of_le hone (Nat.le_add_left 1 d)] at hup
      cases hup
  have hshort := h a d ((up_nodesOf hsound.ids hclosed hbelow d).trans hup)
  cases hp : c.new.parentId with
  | none => exact up_none _
  | some p =>
    rw [hp] at hshort
    exact (up_nodesOf hsound.ids hclosed (hparent p hp) _).symm.trans hshort

theorem OrgInv.step_store (h : OrgInv bounded w) (hi : Running w i)
    (hfree : w.waits i (orgLock (w.session i).pc) = false)
    (hpoint : (w.session i).pc.point = .store c) (hfits : bounded → Fits w i) :
    OrgInv bounded (orgStep statements w i) := by
  have hinv := (h.sessions i hi).point
  rw [hpoint] at hinv
  obtain ⟨htarget, hheld, hclear, hparent⟩ := hinv
  by_cases hknown : c.inserts = true ∧ (lookup (w.view i) c.new.id).isSome = true
  · apply h.aborts hi hfree
    simp only [orgExec, hpoint, if_pos hknown]
  · have hexec : orgExec (w.session i).pc (w.view i) =
        .next ⟨.statement, (w.session i).pc.rest⟩ fun rows => applyChange rows c := by
      simp only [orgExec, hpoint, if_neg hknown]
    have hgoes : Goes w (orgStep statements w i) i _ _ := goes_step hi hfree hexec
    have hview := hgoes.view_eq
    obtain ⟨⟨changes, hwrites, htenants, hnodeIds⟩, hsound, _⟩ := h.sessions i hi
    have hnew : c.inserts = true → ¬Known (w.view i) c.new.id := by
      intro hinserts
      rw [← lookup_eq_none, ← Option.not_isSome_iff_eq_none]
      exact fun hsome => hknown ⟨hinserts, hsome⟩
    refine h.goes_on hgoes.rows fun _ =>
      ⟨⟨changes ++ [c], ?_, ?_, ?_⟩, ⟨?_, fun tenantId => ?_⟩, ?_⟩
    · rw [hgoes.session, hwrites]
      funext rows
      show applyChange (applyChanges rows changes) c = applyChanges rows (changes ++ [c])
      unfold applyChanges
      rw [List.foldl_append]
      rfl
    · intro c' hc'
      rcases List.mem_append.mp hc' with hc' | hc'
      · exact hgoes.kept _ (htenants c' hc')
      · rw [List.mem_singleton.mp hc']
        exact hgoes.kept _ hheld
    · intro c' hc' hinserts
      rcases List.mem_append.mp hc' with hc' | hc'
      · exact hgoes.kept _ (hnodeIds c' hc' hinserts)
      · rw [List.mem_singleton.mp hc'] at hinserts ⊢
        refine hgoes.locked _ ?_
        simp only [orgLock, hpoint, if_pos hinserts]
    · rw [hview, ids_eq_keys, keys_applyChange, List.map_append, ← ids_eq_keys]
      cases hinserts : c.inserts with
      | false =>
        have hnone : insertedKeys [c] = [] := by simp [insertedKeys, hinserts]
        rw [hnone, List.map_nil, List.append_nil]
        exact hsound.ids
      | true =>
        have hone : insertedKeys [c] = [c.new.key] := by simp [insertedKeys, hinserts]
        rw [hone, List.map_singleton]
        refine hsound.ids.append (List.nodup_singleton _) ?_
        rw [List.disjoint_singleton]
        intro hmem
        obtain ⟨r, hr, hid⟩ := List.mem_map.mp hmem
        exact hnew hinserts ⟨r, hr, hid⟩
    · rw [hview, nodesOf_applyChange]
      by_cases htenant : c.new.tenantId = tenantId
      · subst htenant
        rw [if_pos rfl]
        refine (hsound.tenants _).applyChange (fun r hr => (mem_nodesOf.mp hr).2) ?_ hparent hclear ?_
        · constructor
          · rintro hinserts ⟨r, hr, hid⟩
            exact hnew hinserts ⟨r, (mem_nodesOf.mp hr).1, hid⟩
          · intro hunknown
            by_contra hupdates
            exact hunknown (htarget (Bool.eq_false_iff.mpr hupdates))
        · intro hbounded hupdates
          exact (hfits hbounded c hpoint hupdates).nodesSeen hsound (htarget hupdates) hparent
      · rw [if_neg htenant]
        exact hsound.tenants tenantId
    · rw [hgoes.session]
      trivial

theorem OrgInv.step (h : OrgInv bounded w) (hfits : bounded → Fits w i) :
    OrgInv bounded (orgStep statements w i) := by
  by_cases hgo : Running w i ∧ w.waits i (orgLock (w.session i).pc) = false
  · obtain ⟨hi, hfree⟩ := hgo
    cases hpoint : (w.session i).pc.point with
    | statement => exact h.step_statement hi hfree hpoint
    | advisory c => exact h.step_advisory hi hfree hpoint
    | walk c cursor depth => exact h.step_walk hi hfree hpoint
    | tenantMatch c => exact h.step_tenantMatch hi hfree hpoint
    | store c => exact h.step_store hi hfree hpoint hfits
  · have hidle : orgStep statements w i = w := by
      unfold orgStep ReadCommitted.step
      rw [if_pos]
      by_contra hruns
      obtain ⟨hi, hfree⟩ := not_or.mp hruns
      exact hgo ⟨not_not.mp hi, Bool.eq_false_iff.mpr hfree⟩
    rw [hidle]
    exact h

/-! ## Every interleaving -/

variable {rows : List OrgNode}

omit [DecidableEq ι] in
theorem orgInv_initial (h : Sound bounded rows) :
    OrgInv bounded (initial (fun i : ι => orgProgram (statements i)) rows) where
  committed := h
  sessions _ _ :=
    { changes := ⟨[], rfl, fun _ hc => (List.not_mem_nil hc).elim, fun _ hc => (List.not_mem_nil hc).elim⟩
      sound := h
      point := trivial }

def orgRun (statements : ι → List OrgStatement) (rows : List OrgNode) (sched : List ι) : OrgWorld ι :=
  run (orgStep statements) (initial (fun i => orgProgram (statements i)) rows) sched

/-- The committed rows of every interleaving are forests with unique ids. If every subtree fits where it
is moved, they keep within the depth. -/
theorem orgForest_run (statements : ι → List OrgStatement) (hids : (rows.map OrgNode.id).Nodup)
    (hforest : OrgForest rows) (hdepth : DepthLimit rows) (sched : List ι) :
    OrgForest (orgRun statements rows sched).rows ∧
      (Guarded (orgStep statements) Fits
          (initial (fun i => orgProgram (statements i)) rows) sched →
        ∀ pre post, sched = pre ++ post → DepthLimit (orgRun statements rows pre).rows) := by
  constructor
  · have hinv : OrgInv False (orgRun statements rows sched) :=
      run_invariant (fun _ _ h => h.step False.elim)
        (orgInv_initial (sound_of_forest hids hforest hdepth)) sched
    exact hinv.committed.forest
  · rintro hguarded pre post rfl
    have hinv : OrgInv True (orgRun statements rows pre) :=
      hguarded.take.invariant (fun _ _ h hfits => h.step fun _ => hfits)
        (orgInv_initial (sound_of_forest hids hforest hdepth))
    exact hinv.committed.depthLimit trivial

/-- Two transactions hang two roots below each other: the second has to wait, and comes to its own
node. -/
theorem orgForest_two_roots :
    DepthLimit (orgRun (fun b : Bool => if b then [.setParent 2 (some 1)] else [.setParent 1 (some 2)])
      [⟨1, 7, none⟩, ⟨2, 7, none⟩]
      [true, false, true, false, true, true, true, true, true, false, false, false]).rows := by
  have hdepth : DepthLimit [⟨1, 7, none⟩, ⟨2, 7, none⟩] := within_of_known (by decide) (by decide)
  have hforest : OrgForest [⟨1, 7, none⟩, ⟨2, 7, none⟩] := by
    refine ⟨hdepth.ends.acyclic, fun r hr p hp => ?_⟩
    rcases List.mem_pair.mp hr with rfl | rfl <;> cases hp
  refine (orgForest_run _ (by decide) hforest hdepth _).2 ?_ _ [] (List.append_nil _).symm
  refine ⟨?_, ?_, ?_, ?_, ?_, ?_, ?_, ?_, ?_, ?_, ?_, ?_, trivial⟩
  case refine_8 =>
    rintro c ⟨⟩ _
    exact SubtreeFits.of_leaf (by decide) (by decide)
  all_goals
    rintro c ⟨⟩

end Step

/-! ## A subtree that does not fit -/

def chainOf (first n : Nat) : List OrgNode :=
  (List.range n).map fun k => ⟨first + k, 1, if k = 0 then none else some (first + k - 1)⟩

/-- Nobody else is there while the second of two chains is hung below the first. -/
theorem depthLimit_fails : ¬∀ (statements : Unit → List OrgStatement) (rows : List OrgNode),
    (rows.map OrgNode.id).Nodup → OrgForest rows → DepthLimit rows → ∀ sched : List Unit,
      OrgForest (orgRun statements rows sched).rows ∧
        DepthLimit (orgRun statements rows sched).rows := by
  intro h
  have hdepth : DepthLimit (chainOf 0 26 ++ chainOf 26 25) :=
    within_of_known (by decide) (by decide +kernel)
  have hparents : ∀ r ∈ chainOf 0 26 ++ chainOf 26 25, ∀ p ∈ r.parentId,
      ∃ parent ∈ chainOf 0 26 ++ chainOf 26 25, parent.id = p ∧ parent.tenantId = r.tenantId := by
    decide +kernel
  have hlimit := (h (fun _ => [.setParent 26 (some 25)]) _ (by decide +kernel)
    ⟨hdepth.ends.acyclic, hparents⟩ hdepth (List.replicate 40 ())).2 50
  -- the chain of the node at the bottom goes up to the root of the other chain
  have hbottom : up (parentOf (orgRun (fun _ => [.setParent 26 (some 25)])
      (chainOf 0 26 ++ chainOf 26 25) (List.replicate 40 ())).rows) maxDepth (some 50) = some 0 := by
    decide +kernel
  rw [hbottom] at hlimit
  cases hlimit

end Prequest.Organisation
