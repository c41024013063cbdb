import Prequest.Workflow.Engine

/-!
# Which edge a decision takes

A condition decides `true` or `false`, an approval `approved` or `rejected`, and
a wait `condition_met` or the label of its timeout. `advance` follows the first
edge that carries the decision, and without such an edge the first edge of the
node, whatever that edge carries.

* `branchesFollowed_iff`: the law of a run, for every accepted graph.
-/

namespace Prequest.Workflow

/-! ## Runs -/

/-- One call of a run: what it is, what its nodes meet, and the moves it makes. -/
structure CallOf where
  call : Call
  answers : Nat → NodeAnswer
  fuel : Nat

/-- An instance, and the decisions taken for it so far. -/
structure History where
  instance' : Option InstanceRow := none
  trace : List Branch := []

def History.call (g : Graph) (h : History) (c : CallOf) : History :=
  match callEngine g c.fuel c.answers h.instance' c.call with
  | none => h
  | some r => { instance' := some r.state.instance', trace := h.trace ++ r.state.trace }

def history (g : Graph) (calls : List CallOf) : History := Lib.run (History.call g) {} calls

/-! ## The law -/

def Branch.IsFollowed (b : Branch) : Prop :=
  ∀ d, b.decision = some d → b.edge.condition = some d ∨ b.edge.condition = none

/-- No decision of the run took an edge that carries another one. -/
def BranchesFollowed (g : Graph) (calls : List CallOf) : Prop :=
  ∀ b ∈ (history g calls).trace, b.IsFollowed

/-! ## The condition -/

def Branch.IsForced (g : Graph) (b : Branch) : Prop :=
  ∃ n ∈ g.nodes, n.id = b.node ∧
    (n.type = .condition ∧ (b.decision = some "true" ∨ b.decision = some "false") ∨
      n.type = .approval ∧ (b.decision = some "approved" ∨ b.decision = some "rejected"))

/-- The node has an edge that carries the decision, or its first edge carries none or this one. -/
def Branch.HasWay (g : Graph) (b : Branch) : Prop :=
  ∀ d, b.decision = some d →
    (d ≠ "" ∧ ∃ e ∈ g.out b.node, e.condition = some d) ∨
      ∃ first rest, g.out b.node = first :: rest ∧
        (first.condition = some d ∨ first.condition = none)

/-! ## One move -/

section

variable {g : Graph}

/-- The branch was taken by `advance`. -/
def Branch.IsTaken (g : Graph) (b : Branch) : Prop := selectEdge g b.node b.decision = some b.edge

theorem Branch.isFollowed_iff {b : Branch} (h : b.IsTaken g) : b.IsFollowed ↔ b.HasWay g := by
  unfold Branch.IsFollowed Branch.HasWay
  refine forall_congr' fun d => forall_congr' fun hd => ?_
  unfold Branch.IsTaken selectEdge at h
  rw [hd] at h
  cases hout : g.out b.node with
  | nil =>
    rw [hout] at h
    cases h
  | cons first rest =>
    rw [hout] at h
    simp only at h
    split at h
    · -- The empty label counts as no decision.
      rename_i hempty
      obtain rfl := Option.some.inj h
      simp [hempty]
    · rename_i hd'
      obtain hedge := Option.some.inj h
      cases hfind : (first :: rest).find? fun e => e.condition == some d with
      | some found =>
        rw [hfind, Option.getD_some] at hedge
        have hfound := List.find?_some hfind
        have hcondition : found.condition = some d := beq_iff_eq.mp hfound
        have hmem := List.mem_of_find?_eq_some hfind
        rw [← hedge]
        exact ⟨fun _ => .inl ⟨hd', found, hmem, hcondition⟩, fun _ => .inl hcondition⟩
      | none =>
        rw [hfind, Option.getD_none] at hedge
        rw [← hedge]
        constructor
        · intro hfirst
          exact .inr ⟨first, rest, rfl, hfirst⟩
        · intro hway
          rcases hway with ⟨_, e, he, hcondition⟩ | ⟨first', rest', heq, hfirst⟩
          · exact absurd (beq_iff_eq.mpr hcondition) (List.find?_eq_none.mp hfind e he)
          · cases heq
            exact hfirst

theorem Branch.IsForced.hasWay (hok : isAccepted g = true) {b : Branch} (h : b.IsForced g) :
    b.HasWay g := by
  intro d hd
  obtain ⟨n, hn, hid, hkind⟩ := h
  rw [hd] at hkind
  simp only [Option.some.injEq] at hkind
  rcases hkind with ⟨htype, hlabel⟩ | ⟨htype, hlabel⟩
  · obtain ⟨e, he, hcondition⟩ := exists_conditionEdge hok hn htype hlabel
    rw [hid] at he
    refine .inl ⟨?_, e, he, hcondition⟩
    rcases hlabel with rfl | rfl <;> decide
  · obtain ⟨e, he, hcondition⟩ := exists_approvalEdge hok hn htype hlabel
    rw [hid] at he
    refine .inl ⟨?_, e, he, hcondition⟩
    rcases hlabel with rfl | rfl <;> decide

/-! ## Chains and runs -/

theorem advance_isTaken (fuel : Nat) {answers : Nat → NodeAnswer} {s : RunState}
    {fromNodeId : String} {edgeCondition : Option String} (hs : ∀ b ∈ s.trace, b.IsTaken g) :
    ∀ b ∈ (advance g fuel answers s fromNodeId edgeCondition).state.trace, b.IsTaken g := by
  induction fuel generalizing answers s fromNodeId edgeCondition with
  | zero => exact hs
  | succ fuel ih =>
    rw [advance]
    cases hnext : enterNext g fromNodeId edgeCondition with
    | none => exact hs
    | some p =>
      have hfollow : ∀ b ∈ (s.follow fromNodeId edgeCondition p.1 p.2 (answers 0)).trace,
          b.IsTaken g := by
        intro b hb
        rcases List.mem_append.mp hb with hold | hnew
        · exact hs b hold
        · rw [List.mem_singleton.mp hnew]
          exact (enterNext_eq_some.mp hnext).1
      simp only
      cases executeNode p.2 (answers 0) with
      | advance decision => exact ih hfollow
      | write status waitingFor =>
        intro b hb
        refine hfollow b ?_
        simp only [RunResult.state, RunState.write] at hb
        split at hb <;> exact hb
      | stay => exact hfollow
      | throws error => exact hfollow

theorem history_isTaken (calls : List CallOf) : ∀ b ∈ (history g calls).trace, b.IsTaken g := by
  refine Lib.run_invariant (I := fun h : History => ∀ b ∈ h.trace, b.IsTaken g) ?_ ?_ calls
  · intro h c hinv b hb
    unfold History.call callEngine at hb
    cases hfrom : callFrom g h.instance' c.call with
    | none =>
      rw [hfrom] at hb
      exact hinv b hb
    | some p =>
      rw [hfrom] at hb
      rcases List.mem_append.mp hb with hold | hnew
      · exact hinv b hold
      · exact advance_isTaken c.fuel (fun b hb => absurd hb List.not_mem_nil) b hnew
  · intro b hb
    exact absurd hb List.not_mem_nil

/-- The law of a run: the decisions for which no edge is asked for have a way. -/
theorem branchesFollowed_iff (hok : isAccepted g = true) (calls : List CallOf) :
    BranchesFollowed g calls ↔
      ∀ b ∈ (history g calls).trace, ¬b.IsForced g → b.HasWay g := by
  constructor
  · intro hlaw b hb _
    exact (Branch.isFollowed_iff (history_isTaken calls b hb)).mp (hlaw b hb)
  · intro hway b hb
    refine (Branch.isFollowed_iff (history_isTaken calls b hb)).mpr ?_
    by_cases hforced : b.IsForced g
    · exact hforced.hasWay hok
    · exact hway b hb hforced

end

/-! ## A wait with one label -/

/-- A wait whose edges are those given, before an end. -/
def waitGraph (labels : List (Option String)) : Graph where
  nodes :=
    [{ id := "t", type := .trigger },
      { id := "w", type := .waitFor, config := [("wait_type", .scalar (.str "event"))] },
      { id := "e", type := .end' }]
  edges := { from' := "t", to' := "w" } ::
    labels.map fun label => { from' := "w", to' := "e", condition := label }

/-- The wait is reached, and then resolved with the decision given. -/
def waitOnce (decision : String) : List CallOf :=
  [{ call := .start 1, answers := fun _ => {}, fuel := 5 },
    { call := .resume (some decision), answers := fun _ => {}, fuel := 5 }]

/-- A timeout that has an edge of its own takes it. -/
theorem branchesFollowed_timeoutEdge :
    BranchesFollowed (waitGraph [some "condition_met", some "timeout"]) (waitOnce "timeout") := by
  refine (branchesFollowed_iff (by decide) _).mpr ?_
  intro b hb _ d hd
  have htrace : (history (waitGraph [some "condition_met", some "timeout"])
      (waitOnce "timeout")).trace =
        [⟨"t", none, ⟨"t", "w", none⟩⟩, ⟨"w", some "timeout", ⟨"w", "e", some "timeout"⟩⟩] := by
    decide
  rw [htrace] at hb
  rcases List.mem_cons.mp hb with rfl | hb
  · cases hd
  · obtain rfl := List.mem_singleton.mp hb
    cases hd
    exact .inl ⟨by decide, ⟨"w", "e", some "timeout"⟩, by decide, rfl⟩

/-- Without one, the timeout takes the edge of `condition_met`. -/
theorem timeout_takes_conditionMet :
    ¬ ∀ (g : Graph) (calls : List CallOf), isAccepted g = true → BranchesFollowed g calls := by
  intro hlaw
  have hfollowed := hlaw (waitGraph [some "condition_met"]) (waitOnce "timeout") (by decide)
    ⟨"w", some "timeout", ⟨"w", "e", some "condition_met"⟩⟩ (by decide) "timeout" rfl
  revert hfollowed
  decide

end Prequest.Workflow
