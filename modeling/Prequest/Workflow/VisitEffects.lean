import Prequest.Workflow.CaseRun

/-!
# One change for every visit

A node that changes the case is to do so once on every visit. The gate of its
command knows the instance and the node but not the visit, so that the command
of a later visit is taken for a repetition of the first.

* `effectsOnce_iff`: the visits of a run apply their changes exactly when its moves meet it.
-/

namespace Prequest.Workflow

open Prequest.Lib Prequest.Command

/-! ## One call -/

/-- The call of the node is sent, and the body of its command commits. -/
def reaches (m : Moment) (node : Node) (s : CaseState) : Bool :=
  m.sent &&
    match prepare m.dir m.now node s with
    | .ok (some p) => (perform m.dir m.now node.id p s).isOk
    | _ => false

section

variable {m : Moment} {instanceId entityId : Nat} {node : Node} {w : CaseWorld}

theorem command_of_recorded {key : OperationKey} {p : CasePayload}
    (h : w.operations.get? key ≠ none) : (command m key node.id p w).1 = w := by
  unfold command
  cases hanswer : gate w.operations key p.hashed with
  | error error => cases error <;> rfl
  | ok answer =>
    cases answer with
    | cached result => rfl
    | proceed => exact absurd (gate_eq_proceed.mp hanswer) h

theorem command_of_free {key : OperationKey} {p : CasePayload}
    (h : w.operations.get? key = none) :
    (command m key node.id p w).1 =
      match perform m.dir m.now node.id p w.case' with
      | .ok s => ⟨s, finish (begin w.operations key p.hashed) key ()⟩
      | .error _ => w := by
  unfold command
  rw [gate_eq_proceed.mpr h]
  simp only
  cases perform m.dir m.now node.id p w.case' with
  | ok s => rfl
  | error error => rfl

theorem nodeCall_cases :
    ((nodeCall m instanceId entityId node w).1 = w ∧
        (reaches m node w.case' = false ∨
          w.operations.get? (operationKey instanceId entityId node) ≠ none)) ∨
      ∃ p s, prepare m.dir m.now node w.case' = .ok (some p) ∧
        perform m.dir m.now node.id p w.case' = .ok s ∧ reaches m node w.case' = true ∧
        w.operations.get? (operationKey instanceId entityId node) = none ∧
        (nodeCall m instanceId entityId node w).1 =
          ⟨s, finish (begin w.operations (operationKey instanceId entityId node) p.hashed)
            (operationKey instanceId entityId node) ()⟩ := by
  unfold nodeCall reaches callCommand
  cases hprepare : prepare m.dir m.now node w.case' with
  | error error => exact .inl ⟨rfl, .inl (by simp)⟩
  | ok payload =>
    cases payload with
    | none => exact .inl ⟨rfl, .inl (by simp)⟩
    | some p =>
      simp only
      by_cases hsent : m.sent = true
      · rw [if_pos hsent, hsent]
        by_cases hfree : w.operations.get? (operationKey instanceId entityId node) = none
        · rw [command_of_free hfree]
          cases hperform : perform m.dir m.now node.id p w.case' with
          | error error => exact .inl ⟨rfl, .inl rfl⟩
          | ok s => exact .inr ⟨p, s, rfl, hperform, rfl, hfree, rfl⟩
        · exact .inl ⟨command_of_recorded hfree, .inr hfree⟩
      · rw [if_neg hsent, Bool.eq_false_iff.mpr hsent]
        exact .inl ⟨rfl, .inl rfl⟩

theorem nodeCall_recorded (k : OperationKey) :
    ((nodeCall m instanceId entityId node w).1.operations.get? k ≠ none) ↔
      w.operations.get? k ≠ none ∨
        k = operationKey instanceId entityId node ∧ reaches m node w.case' = true := by
  rcases nodeCall_cases (m := m) (w := w) with ⟨hsame, hidle⟩ |
    ⟨p, s, _, _, hreaches, hfree, hworld⟩
  · rw [hsame]
    constructor
    · exact Or.inl
    · intro h
      rcases h with h | ⟨rfl, hreaches⟩
      · exact h
      · exact hidle.resolve_left (by rw [hreaches]; exact Bool.noConfusion)
  · rw [hworld]
    show (finish (begin w.operations _ _) _ ()).get? k ≠ none ↔ _
    rw [get?_finish_begin hfree]
    by_cases hk : k = operationKey instanceId entityId node
    · simp [hk, hreaches]
    · simp [hk]

/-- The change of a node happens at its call exactly when the change is idle there, or the call is
the first of its key that gets through. -/
theorem nodeCall_applied :
    change m.dir m.now node w.case' =
        .ok (nodeCall m instanceId entityId node w).1.case' ↔
      change m.dir m.now node w.case' = .ok w.case' ∨
        reaches m node w.case' = true ∧
          w.operations.get? (operationKey instanceId entityId node) = none := by
  rcases nodeCall_cases (m := m) (w := w) with ⟨hsame, hidle⟩ |
    ⟨p, s, hprepare, hperform, hreaches, hfree, hworld⟩
  · rw [hsame]
    constructor
    · exact Or.inl
    · intro h
      rcases h with h | ⟨hreaches, hfree⟩
      · exact h
      · rcases hidle with hidle | hidle
        · exact absurd hreaches (by rw [hidle]; exact Bool.noConfusion)
        · exact absurd hfree hidle
  · refine iff_of_true ?_ (.inr ⟨hreaches, hfree⟩)
    rw [hworld]
    show (prepare m.dir m.now node w.case' >>= _) = _
    rw [hprepare]
    exact hperform

end

/-! ## Runs -/

def Visit.Applied (v : Visit) : Prop :=
  change v.moment.dir v.moment.now v.node v.before = .ok v.after

instance (v : Visit) : Decidable v.Applied := inferInstanceAs (Decidable (_ = _))

/-- The visit's call got through, or would have, had its key been new. -/
def Visit.reached (v : Visit) : Bool := reaches v.moment v.node v.before

variable (g : Graph) (entityId : Nat)

/-- The node that the next move enters is one whose change leaves the case as it is, or the call of
the node gets through and no call of an earlier visit of the node did. -/
def FirstOrIdle (s : EngineState) : EngineAction → Prop
  | .move m => ∀ row fromNodeId edgeCondition e node,
      s.entering g = some (row, fromNodeId, edgeCondition, e, node) →
        change m.dir m.now node s.world.case' = .ok s.world.case' ∨
          reaches m node s.world.case' = true ∧
            ∀ v ∈ s.visits, v.node.id = node.id → v.reached = false
  | _ => True

/-- What `command_operations` knows of the visits. -/
structure Recorded (s : EngineState) : Prop where
  found : ∀ v ∈ s.visits, g.node? v.node.id = some v.node
  unstarted : s.instance' = none → s.visits = [] ∧ s.world.operations = Table.empty
  recorded : ∀ row, s.instance' = some row → ∀ node, g.node? node.id = some node →
    (s.world.operations.get? (operationKey row.id entityId node) ≠ none ↔
      ∃ v ∈ s.visits, v.node = node ∧ v.reached = true)

section

variable {g entityId} {s : EngineState} {m : Moment} {row : InstanceRow} {fromNodeId : String}
  {edgeCondition : Option String} {e : Edge} {node : Node}

theorem entering_eq_some :
    s.entering g = some (row, fromNodeId, edgeCondition, e, node) ↔
      s.instance' = some row ∧ s.pending = some (fromNodeId, edgeCondition) ∧
        enterNext g fromNodeId edgeCondition = some (e, node) := by
  unfold EngineState.entering
  cases s.instance' with
  | none => simp
  | some row' =>
    cases s.pending with
    | none => simp
    | some next =>
      obtain ⟨fromNodeId', edgeCondition'⟩ := next
      simp only [Option.map_eq_some_iff, Option.some.injEq, Prod.mk.injEq, Prod.exists]
      constructor
      · rintro ⟨e', node', hnext, rfl, rfl, rfl, rfl, rfl⟩
        exact ⟨rfl, ⟨rfl, rfl⟩, hnext⟩
      · rintro ⟨rfl, ⟨rfl, rfl⟩, hnext⟩
        exact ⟨e, node, hnext, rfl, rfl, rfl, rfl, rfl⟩

theorem node?_id (h : g.node? fromNodeId = some node) : g.node? node.id = some node := by
  have hid : node.id = fromNodeId := by simpa using List.find?_some h
  rw [hid]
  exact h

theorem entering_node? (h : s.entering g = some (row, fromNodeId, edgeCondition, e, node)) :
    g.node? node.id = some node :=
  node?_id (enterNext_eq_some.mp (entering_eq_some.mp h).2.2).2

theorem operationKey_inj {instanceId : Nat} {node' : Node} (h : g.node? node.id = some node)
    (h' : g.node? node'.id = some node')
    (hkey : operationKey instanceId entityId node = operationKey instanceId entityId node') :
    node = node' := by
  have hid : node.id = node'.id := by
    unfold operationKey at hkey
    split at hkey <;> split at hkey <;> simp at hkey <;> exact hkey
  rw [hid, h'] at h
  exact (Option.some.inj h).symm

theorem recorded_visitNode (h : Recorded g entityId s)
    (hentering : s.entering g = some (row, fromNodeId, edgeCondition, e, node)) :
    Recorded g entityId (visitNode entityId m s row fromNodeId edgeCondition e node) := by
  have hnode := entering_node? hentering
  have hrow := (entering_eq_some.mp hentering).1
  obtain ⟨row', hrow', hid⟩ :
      ∃ row', (visitNode entityId m s row fromNodeId edgeCondition e node).instance' = some row' ∧
        row'.id = row.id := visitNode_instance
  constructor
  · intro v hv
    rw [visitNode_visits] at hv
    rcases List.mem_append.mp hv with hv | hv
    · exact h.found v hv
    · obtain rfl := List.mem_singleton.mp hv
      exact hnode
  · intro hnone
    rw [hrow'] at hnone
    cases hnone
  · intro row'' hrow'' node' hnode'
    obtain rfl := Option.some.inj (hrow'.symm.trans hrow'')
    rw [hid, visitNode_world, visitNode_visits, nodeCall_recorded, h.recorded row hrow node' hnode']
    constructor
    · rintro (⟨v, hv, hsame, hreached⟩ | ⟨hkey, hreaches⟩)
      · exact ⟨v, List.mem_append_left _ hv, hsame, hreached⟩
      · refine ⟨_, List.mem_append_right _ (List.mem_singleton.mpr rfl), ?_, hreaches⟩
        exact (operationKey_inj hnode' hnode hkey).symm
    · rintro ⟨v, hv, hsame, hreached⟩
      rcases List.mem_append.mp hv with hv | hv
      · exact .inl ⟨v, hv, hsame, hreached⟩
      · obtain rfl := List.mem_singleton.mp hv
        obtain rfl : node = node' := hsame
        exact .inr ⟨rfl, hreached⟩

theorem callFrom_id {c : Call} {row' : InstanceRow} (hrow : s.instance' = some row)
    (h : callFrom g s.instance' c = some (row', fromNodeId, edgeCondition)) :
    row'.id = row.id := by
  rw [hrow] at h
  cases c with
  | start instanceId => cases h
  | resume edgeCondition' =>
    simp only [callFrom] at h
    split at h
    · cases h
      rfl
    · cases h

theorem recorded_engineStep (h : Recorded g entityId s) (a : EngineAction) :
    Recorded g entityId (engineStep g entityId s a) := by
  cases a with
  | call c =>
    simp only [engineStep]
    cases hfrom : callFrom g s.instance' c with
    | none => exact h
    | some p =>
      obtain ⟨row', fromNodeId, edgeCondition⟩ := p
      refine ⟨h.found, ?_, ?_⟩
      · intro hnone
        cases hnone
      · intro row'' hrow'' node hnode
        obtain rfl := Option.some.inj hrow''
        show s.world.operations.get? _ ≠ none ↔ ∃ v ∈ s.visits, _
        cases hinstance : s.instance' with
        | none =>
          obtain ⟨hvisits, hoperations⟩ := h.unstarted hinstance
          rw [hvisits, hoperations]
          simp [Table.get?, Table.empty]
        | some row =>
          rw [callFrom_id hinstance hfrom]
          exact h.recorded row hinstance node hnode
  | move m =>
    simp only [engineStep]
    cases hentering : s.entering g with
    | none => exact ⟨h.found, h.unstarted, h.recorded⟩
    | some p =>
      obtain ⟨row, fromNodeId, edgeCondition, e, node⟩ := p
      exact recorded_visitNode h hentering
  | interrupt => exact ⟨h.found, h.unstarted, h.recorded⟩
  | edit case' => exact ⟨h.found, h.unstarted, h.recorded⟩

theorem recorded_initial (case' : CaseState) : Recorded g entityId (initial case') where
  found := fun v hv => by cases hv
  unstarted := fun _ => ⟨rfl, rfl⟩
  recorded := fun row hrow => by cases hrow

/-- After a step the visits are applied exactly when they were before and the step is a first or
idle one. -/
theorem applied_engineStep (h : Recorded g entityId s) (happlied : ∀ v ∈ s.visits, v.Applied)
    (a : EngineAction) :
    (∀ v ∈ (engineStep g entityId s a).visits, v.Applied) ↔ FirstOrIdle g s a := by
  cases a with
  | call c =>
    refine iff_of_true ?_ trivial
    simp only [engineStep]
    split <;> exact happlied
  | interrupt => exact iff_of_true happlied trivial
  | edit case' => exact iff_of_true happlied trivial
  | move m =>
    simp only [engineStep, FirstOrIdle]
    cases hentering : s.entering g with
    | none => exact iff_of_true happlied (fun _ _ _ _ _ hnone => by cases hnone)
    | some p =>
      obtain ⟨row, fromNodeId, edgeCondition, e, node⟩ := p
      have hnode := entering_node? hentering
      have hrecorded := h.recorded row (entering_eq_some.mp hentering).1 node hnode
      -- no record of the node is no earlier visit of it that got through
      have hfree : s.world.operations.get? (operationKey row.id entityId node) = none ↔
          ∀ v ∈ s.visits, v.node.id = node.id → v.reached = false := by
        rw [← not_iff_not, ← ne_eq, hrecorded]
        constructor
        · rintro ⟨v, hv, rfl, hreached⟩ hall
          exact absurd hreached (by rw [hall v hv rfl]; exact Bool.noConfusion)
        · intro hsome
          obtain ⟨v, hv, hid, hreached⟩ :
              ∃ v ∈ s.visits, v.node.id = node.id ∧ v.reached ≠ false := by
            by_contra hnone
            refine hsome fun v hv hid => ?_
            by_contra hreached
            exact hnone ⟨v, hv, hid, hreached⟩
          refine ⟨v, hv, ?_, by simpa using hreached⟩
          have hfound := h.found v hv
          rw [hid, hnode] at hfound
          exact (Option.some.inj hfound).symm
      have hlast : (∀ v ∈ (visitNode entityId m s row fromNodeId edgeCondition e node).visits,
          v.Applied) ↔
          change m.dir m.now node s.world.case' =
            .ok (nodeCall m row.id entityId node s.world).1.case' := by
        rw [visitNode_visits]
        constructor
        · intro hall
          exact hall _ (List.mem_append_right _ (List.mem_singleton.mpr rfl))
        · intro hchange v hv
          rcases List.mem_append.mp hv with hv | hv
          · exact happlied v hv
          · obtain rfl := List.mem_singleton.mp hv
            exact hchange
      rw [hlast, nodeCall_applied, hfree]
      constructor
      · intro hcond row' fromNodeId' edgeCondition' e' node' hsame
        cases hsame
        exact hcond
      · intro hcond
        exact hcond row fromNodeId edgeCondition e node rfl

theorem visits_engineStep (s : EngineState) (a : EngineAction) :
    ∃ new, (engineStep g entityId s a).visits = s.visits ++ new := by
  cases a with
  | call c =>
    simp only [engineStep]
    split <;> exact ⟨[], (List.append_nil _).symm⟩
  | move m =>
    simp only [engineStep]
    split
    · exact ⟨[], (List.append_nil _).symm⟩
    · exact ⟨_, visitNode_visits⟩
  | interrupt => exact ⟨[], (List.append_nil _).symm⟩
  | edit case' => exact ⟨[], (List.append_nil _).symm⟩

theorem visits_run (s : EngineState) (as : List EngineAction) :
    ∃ new, (run (engineStep g entityId) s as).visits = s.visits ++ new := by
  refine run_rel (R := fun s t : EngineState => ∃ new, t.visits = s.visits ++ new) ?_ ?_
    visits_engineStep s as
  · intro s
    exact ⟨[], (List.append_nil _).symm⟩
  · intro s t u hst htu
    obtain ⟨new, hst⟩ := hst
    obtain ⟨new', htu⟩ := htu
    exact ⟨new ++ new', by rw [htu, hst, List.append_assoc]⟩

theorem engineStep_call_of_active (hrow : s.instance' = some row) (hactive : row.status ≠ .waiting)
    (c : Call) : engineStep g entityId s (.call c) = s := by
  have hfrom : callFrom g s.instance' c = none := by
    rw [hrow]
    cases c with
    | start instanceId => rfl
    | resume edgeCondition =>
      simp only [callFrom]
      exact if_neg hactive
  simp only [engineStep, hfrom]

end

/-- Every visit applies its change once: the visits of the run apply their changes to the case as
they find it, and a repeated call of an instance that does not wait changes nothing. -/
structure EffectsOnce (case' : CaseState) (actions : List EngineAction) : Prop where
  applied : ∀ v ∈ (run (engineStep g entityId) (initial case') actions).visits, v.Applied
  unrepeated : ∀ pre c post, actions = pre ++ .call c :: post → ∀ row,
    (run (engineStep g entityId) (initial case') pre).instance' = some row →
      row.status ≠ .waiting →
        run (engineStep g entityId) (initial case') (pre ++ [.call c]) =
          run (engineStep g entityId) (initial case') pre

variable {g entityId}

/-- The visits of a run apply their changes once exactly when every move finds a change that is
idle, or makes the first call of its node that gets through. -/
theorem effectsOnce_iff (case' : CaseState) (actions : List EngineAction) :
    EffectsOnce g entityId case' actions ↔
      Guarded (engineStep g entityId) (FirstOrIdle g) (initial case') actions := by
  have hrecorded : Guarded (engineStep g entityId) (fun s _ => Recorded g entityId s)
      (initial case') actions := by
    rw [guarded_iff]
    intro pre a post _
    exact run_invariant (I := Recorded g entityId) (fun s a h => recorded_engineStep h a)
      (recorded_initial case') pre
  have hruns := invariant_iff_guarded (f := engineStep g entityId)
    (I := fun s => ∀ v ∈ s.visits, v.Applied) (P := fun s _ => Recorded g entityId s)
    (fun s a hs h => applied_engineStep h hs a) (s := initial case') (fun v hv => by cases hv)
    hrecorded
  rw [← hruns]
  constructor
  · intro h pre post hsplit v hv
    have hlater : ∃ new, (run (engineStep g entityId) (run (engineStep g entityId) (initial case')
        pre) post).visits = (run (engineStep g entityId) (initial case') pre).visits ++ new :=
      visits_run _ post
    obtain ⟨new, hvisits⟩ := hlater
    refine h.applied v ?_
    rw [hsplit, run_append, hvisits]
    exact List.mem_append_left _ hv
  · intro h
    refine ⟨h actions [] (List.append_nil _).symm, ?_⟩
    intro pre c post _ row hrow hactive
    rw [run_append]
    show engineStep g entityId _ (.call c) = _
    exact engineStep_call_of_active hrow hactive c

/-! ## A loop back -/

/-- Raise the priority, lower it and ask for approval; a rejection leads back to the start. -/
def rejectedLoop : Graph where
  nodes :=
    [{ id := "start", type := .trigger },
      { id := "raise", type := .updateTicket
        config := [("fields", .fields [("priority", .str "high")])] },
      { id := "lower", type := .updateTicket
        config := [("fields", .fields [("priority", .str "low")])] },
      { id := "ask", type := .approval, config := [("approver_person_id", .scalar (.str "p"))] },
      { id := "done", type := .end' }]
  edges :=
    [{ from' := "start", to' := "raise" }, { from' := "raise", to' := "lower" },
      { from' := "lower", to' := "ask" },
      { from' := "ask", to' := "done", condition := some "approved" },
      { from' := "ask", to' := "raise", condition := some "rejected" }]

def newCase : CaseState where
  ticket := { status := "new", statusCategory := "new", title := "Printer" }

/-- The graph is accepted, and the second visit of `raise` leaves the priority as it is. -/
theorem rejectedLoop_skips : isAccepted rejectedLoop = true ∧
    ¬ EffectsOnce rejectedLoop 1 newCase
      [.call (.start 1), .move {}, .move {}, .move {}, .call (.resume (some "rejected")),
        .move {}] := by
  refine ⟨by decide +kernel, ?_⟩
  intro h
  have happlied := h.applied
  revert happlied
  decide +kernel

end Prequest.Workflow
