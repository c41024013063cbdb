import Mathlib.Data.Fintype.Card
import Mathlib.Data.Set.Finite.List
import Mathlib.Logic.Relation
import Prequest.Workflow.Branches

/-!
# Calls that end

A call of the engine executes nodes until one waits, completes or fails. Nothing
in the engine bounds the chain, and the validator does not ask that a cycle of a
graph has a node that waits; nor does it know whether the entity of an instance
has a row in `tickets`, which fields of a ticket a workflow may write, or how far
a timer may reach.

* `callsSettle_iff`: the law, for every accepted graph.
-/

namespace Prequest.Workflow

open Relation

/-! ## The law -/

/-- What the calls of a run meet throughout. -/
structure Surroundings where
  /-- The entity has a row in `tickets`. -/
  inTickets : Bool
  /-- The error with which the database refuses what a node names, as a team that is not there. -/
  refusal : Node → Option String := fun _ => none
  /-- The time of the last call. -/
  latest : Int := 4102444800000

/-- No service fails and no write is lost. -/
structure NodeAnswer.IsOrdinary (env : Surroundings) (answer : NodeAnswer) : Prop where
  ticket : answer.ticket.isSome = env.inTickets
  error : answer.error = env.refusal
  now : 0 ≤ answer.now ∧ answer.now ≤ env.latest
  positionLost : answer.positionLost = false
  statusLost : answer.statusLost = false

/-- After finitely many moves the chain ends, and the instance is not active any more. -/
def Settles (g : Graph) (answers : Nat → NodeAnswer) (s : RunState) (fromNodeId : String)
    (edgeCondition : Option String) : Prop :=
  ∃ fuel s', advance g fuel answers s fromNodeId edgeCondition = .returned s' ∧
    s'.instance'.status ≠ .active

def CallsSettle (g : Graph) (env : Surroundings) : Prop :=
  ∀ calls call answers, (∀ c ∈ calls, ∀ i, (c.answers i).IsOrdinary env) →
    (∀ i, (answers i).IsOrdinary env) →
    ∀ p, callFrom g (history g calls).instance' call = some p → Settles g answers ⟨p.1, []⟩ p.2.1 p.2.2

/-! ## The condition -/

section

variable (g : Graph) (env : Surroundings)

/-- From `n` the engine can go on to `m` at once. -/
def Next (n m : Node) : Prop :=
  ∃ answer decision e, NodeAnswer.IsOrdinary env answer ∧
    executeNode n answer = .advance decision ∧ enterNext g n.id decision = some (e, m)

/-- `n` waits, and with some decision it is left for `m`. -/
def Wakes (n m : Node) : Prop :=
  ∃ answer waitingFor decision e, NodeAnswer.IsOrdinary env answer ∧
    executeNode n answer = .write .waiting waitingFor ∧ enterNext g n.id decision = some (e, m)

inductive Entered : Node → Prop
  | start {t m : Node} {e : Edge} (htrigger : trigger? g = some t)
      (hnext : enterNext g t.id none = some (e, m)) : Entered m
  | next {n m : Node} (hn : Entered n) (hnext : Next g env n m) : Entered m
  | wake {n m : Node} (hn : Entered n) (hwakes : Wakes g env n m) : Entered m

structure RunsSafely : Prop where
  /-- On every cycle that the engine can go round there is a node that waits. -/
  noCycle : ∀ n, Entered g env n → ¬TransGen (Next g env) n n
  /-- No node fails on its configuration, its entity or the tenant. -/
  sound : ∀ n, Entered g env n → ∀ answer, NodeAnswer.IsOrdinary env answer → ¬n.Fails answer

end

/-! ## One node -/

section

variable {g : Graph} {env : Surroundings}

variable {fromNodeId : String} {edgeCondition : Option String} {m : Node}

theorem mem_of_enterNext {e : Edge} (h : enterNext g fromNodeId edgeCondition = some (e, m)) :
    m ∈ g.nodes :=
  List.mem_of_find?_eq_some (enterNext_eq_some.mp h).2

theorem trigger?_eq_some {t : Node} (h : trigger? g = some t) : t ∈ g.nodes ∧ t.type = .trigger := by
  unfold trigger? at h
  exact ⟨List.mem_of_find?_eq_some h, by simpa using List.find?_some h⟩

variable {n : Node}

theorem Entered.mem (h : Entered g env n) : n ∈ g.nodes := by
  cases h with
  | start _ hnext => exact mem_of_enterNext hnext
  | next _ hnext =>
    obtain ⟨_, _, _, _, _, hnext⟩ := hnext
    exact mem_of_enterNext hnext
  | wake _ hwakes =>
    obtain ⟨_, _, _, _, _, _, hnext⟩ := hwakes
    exact mem_of_enterNext hnext

variable {answer : NodeAnswer} {p : InstanceRow × String × Option String}
  {answers : Nat → NodeAnswer}

/-! ## Calls settle -/

def Stands (g : Graph) (env : Surroundings) (row : InstanceRow) : Prop :=
  row.status = .waiting → ∃ n answer waitingFor, Entered g env n ∧ n.id = row.currentNodeId ∧
    NodeAnswer.IsOrdinary env answer ∧ executeNode n answer = .write .waiting waitingFor

theorem RunState.write_status (h : answer.IsOrdinary env) (s : RunState)
    (status : InstanceStatus) (waitingFor : Option String) :
    (s.write status waitingFor answer).instance'.status = status := by
  unfold RunState.write
  rw [h.statusLost]
  rfl

theorem RunState.write_follow_currentNodeId (h : answer.IsOrdinary env)
    (s : RunState) (fromNodeId : String) (edgeCondition : Option String) (e : Edge) (node : Node)
    (status : InstanceStatus) (waitingFor : Option String) :
    ((s.follow fromNodeId edgeCondition e node answer).write status waitingFor
      answer).instance'.currentNodeId = node.id := by
  unfold RunState.write RunState.follow
  rw [h.statusLost, h.positionLost]
  rfl

theorem advance_stands (fuel : Nat) {s : RunState} (hanswers : ∀ i, (answers i).IsOrdinary env)
    (hactive : s.instance'.status = .active)
    (hentered : ∀ e m, enterNext g fromNodeId edgeCondition = some (e, m) → Entered g env m) :
    Stands g env (advance g fuel answers s fromNodeId edgeCondition).state.instance' := by
  have hstill : ∀ row : InstanceRow, row.status = .active → Stands g env row := by
    intro row hrow hwaiting
    rw [hrow] at hwaiting
    cases hwaiting
  induction fuel generalizing answers s fromNodeId edgeCondition with
  | zero => exact hstill _ hactive
  | succ fuel ih =>
    rw [advance]
    cases hnext : enterNext g fromNodeId edgeCondition with
    | none => exact hstill _ hactive
    | some p =>
      obtain ⟨e, n⟩ := p
      have hn : Entered g env n := hentered e n hnext
      have hfollow : (s.follow fromNodeId edgeCondition e n (answers 0)).instance'.status
          = .active := by
        rw [RunState.follow_status, hactive]
      simp only
      cases heffect : executeNode n (answers 0) with
      | advance decision =>
        refine ih (fun i => hanswers (i + 1)) hfollow ?_
        intro e' m hm
        exact hn.next ⟨answers 0, decision, e', hanswers 0, heffect, hm⟩
      | write status waitingFor =>
        intro hwaiting
        have hstatus : status = .waiting := by
          rw [← RunState.write_status (hanswers 0) _ status waitingFor]
          exact hwaiting
        subst hstatus
        exact ⟨n, answers 0, waitingFor, hn,
          (RunState.write_follow_currentNodeId (hanswers 0) ..).symm, hanswers 0, heffect⟩
      | stay => exact hstill _ hfollow
      | throws error => exact hstill _ hfollow

theorem callFrom_entered (hok : isAccepted g = true) {instance' : Option InstanceRow}
    (hstands : ∀ row, instance' = some row → Stands g env row) {call : Call}
    (hfrom : callFrom g instance' call = some p) :
    p.1.status = .active ∧ (∃ e m, enterNext g p.2.1 p.2.2 = some (e, m)) ∧
      ∀ e m, enterNext g p.2.1 p.2.2 = some (e, m) → Entered g env m := by
  unfold callFrom at hfrom
  cases call with
  | start instanceId =>
    cases instance' with
    | some row => cases hfrom
    | none =>
      obtain ⟨t, ht, rfl⟩ := Option.map_eq_some_iff.mp hfrom
      obtain ⟨hmem, htype⟩ := trigger?_eq_some ht
      refine ⟨rfl, exists_enterNext hok hmem ?_ none, ?_⟩
      · rw [htype]
        decide
      · intro e m hnext
        exact .start ht hnext
  | resume edgeCondition =>
    cases instance' with
    | none => cases hfrom
    | some row =>
      simp only at hfrom
      split at hfrom
      · rename_i hwaiting
        obtain rfl := Option.some.inj hfrom
        obtain ⟨n, answer, waitingFor, hn, hid, hanswer, heffect⟩ := hstands row rfl hwaiting
        refine ⟨rfl, ?_, ?_⟩
        · simp only
          rw [← hid]
          refine exists_enterNext hok hn.mem ?_ edgeCondition
          exact (executeNode_write heffect).2 rfl
        · intro e m hnext
          refine hn.wake ⟨answer, waitingFor, edgeCondition, e, hanswer, heffect, ?_⟩
          rw [hid]
          exact hnext
      · cases hfrom

theorem history_stands (hok : isAccepted g = true) {calls : List CallOf}
    (hcalls : ∀ c ∈ calls, ∀ i, (c.answers i).IsOrdinary env) :
    ∀ row, (history g calls).instance' = some row → Stands g env row := by
  have hguarded : Lib.Guarded (History.call g)
      (fun _ c => ∀ i, (c.answers i).IsOrdinary env) {} calls := by
    refine Lib.guarded_iff.mpr ?_
    rintro before c after rfl
    exact hcalls c (List.mem_append_right _ List.mem_cons_self)
  refine Lib.Guarded.invariant
    (I := fun h : History => ∀ row, h.instance' = some row → Stands g env row) ?_ ?_ hguarded
  · intro h c hstands hc row hrow
    unfold History.call callEngine at hrow
    cases hfrom : callFrom g h.instance' c.call with
    | none =>
      rw [hfrom] at hrow
      exact hstands row hrow
    | some p =>
      rw [hfrom] at hrow
      obtain rfl := Option.some.inj hrow
      obtain ⟨hactive, _, hentered⟩ := callFrom_entered hok hstands hfrom
      exact advance_stands c.fuel hc hactive hentered
  · intro row hrow
    cases hrow

theorem RunsSafely.settles (hok : isAccepted g = true) (h : RunsSafely g env)
    (hn : Entered g env n) (hanswers : ∀ i, (answers i).IsOrdinary env) {s : RunState} {e : Edge}
    (hnext : enterNext g fromNodeId edgeCondition = some (e, n)) :
    Settles g answers s fromNodeId edgeCondition := by
  -- The nodes that can be entered are finitely many, and no cycle leads back to one.
  have hfinite : Finite {n // Entered g env n} :=
    ((List.finite_toSet g.nodes).subset fun n hn => Entered.mem hn).to_subtype
  let r : {n // Entered g env n} → {n // Entered g env n} → Prop :=
    fun a b => TransGen (Next g env) b.1 a.1
  have : IsTrans _ r := ⟨fun _ _ _ hab hbc => hbc.trans hab⟩
  have : Std.Irrefl r := ⟨fun a ha => h.noCycle a.1 a.2 ha⟩
  have hwf : WellFounded r := Finite.wellFounded_of_trans_of_irrefl r
  suffices hall : ∀ a : {n // Entered g env n}, ∀ answers s fromNodeId edgeCondition e,
      (∀ i, (answers i).IsOrdinary env) →
      enterNext g fromNodeId edgeCondition = some (e, a.1) →
      Settles g answers s fromNodeId edgeCondition from
    hall ⟨n, hn⟩ answers s fromNodeId edgeCondition e hanswers hnext
  intro a
  induction a using hwf.induction with
  | _ a ih =>
    intro answers s fromNodeId edgeCondition e hanswers hnext
    have hlands := not_not.mp (mt Node.fails_iff.mpr (h.sound a.1 a.2 (answers 0) (hanswers 0)))
    cases hresult : executeNode a.1 (answers 0) with
    | advance decision =>
      obtain ⟨e', m, hm⟩ := exists_enterNext hok a.2.mem (executeNode_advance hresult) decision
      have hstep : Next g env a.1 m :=
        ⟨answers 0, decision, e', hanswers 0, hresult, hm⟩
      obtain ⟨fuel, s', hs', hstatus⟩ := ih ⟨m, a.2.next hstep⟩ (.single hstep)
        (fun i => answers (i + 1)) (s.follow fromNodeId edgeCondition e a.1 (answers 0)) a.1.id
        decision e' (fun i => hanswers (i + 1)) hm
      refine ⟨fuel + 1, s', ?_, hstatus⟩
      rw [advance]
      simp only [hnext, hresult]
      exact hs'
    | write status waitingFor =>
      refine ⟨1, (s.follow fromNodeId edgeCondition e a.1 (answers 0)).write status waitingFor
        (answers 0), ?_, ?_⟩
      · rw [advance]
        simp only [hnext, hresult]
      · rw [RunState.write_status (hanswers 0)]
        exact (executeNode_write hresult).1
    | stay =>
      rw [hresult] at hlands
      exact absurd hlands NodeEffect.not_lands_stay
    | throws error =>
      rw [hresult] at hlands
      exact absurd hlands NodeEffect.not_lands_throws

theorem RunsSafely.callsSettle (hok : isAccepted g = true) (h : RunsSafely g env) :
    CallsSettle g env := by
  intro calls call answers hcalls hanswers p hfrom
  obtain ⟨_, ⟨e, m, hnext⟩, hentered⟩ := callFrom_entered hok (history_stands hok hcalls) hfrom
  exact h.settles hok (hentered e m hnext) hanswers hnext

/-! ## Nodes that a chain does not leave -/

/-- With some answers, no chain that enters `n` settles. -/
def Stuck (g : Graph) (env : Surroundings) (n : Node) : Prop :=
  ∃ answers : Nat → NodeAnswer, (∀ i, (answers i).IsOrdinary env) ∧
    ∀ s fromNodeId edgeCondition e, s.instance'.status = .active →
      enterNext g fromNodeId edgeCondition = some (e, n) →
      ¬Settles g answers s fromNodeId edgeCondition

def answersThen : List NodeAnswer → (Nat → NodeAnswer) → Nat → NodeAnswer
  | [], others => others
  | answer :: rest, others => fun i =>
      match i with
      | 0 => answer
      | i + 1 => answersThen rest others i

theorem answersThen_append (before after : List NodeAnswer) (others : Nat → NodeAnswer) :
    answersThen (before ++ after) others = answersThen before (answersThen after others) := by
  induction before with
  | nil => rfl
  | cons answer rest ih =>
    funext i
    cases i with
    | zero => rfl
    | succ i => exact congrFun ih i

theorem answersThen_isOrdinary {before : List NodeAnswer} {others : Nat → NodeAnswer}
    (hbefore : ∀ a ∈ before, a.IsOrdinary env) (hothers : ∀ i, (others i).IsOrdinary env) :
    ∀ i, (answersThen before others i).IsOrdinary env := by
  induction before with
  | nil => exact hothers
  | cons answer rest ih =>
    intro i
    cases i with
    | zero => exact hbefore answer List.mem_cons_self
    | succ i => exact ih (fun a ha => hbefore a (List.mem_cons_of_mem answer ha)) i

theorem stuck_of_cycle (h : TransGen (Next g env) n n) : Stuck g env n := by
  -- On the cycle every node has a successor on the cycle.
  let cycle : Type := {m // TransGen (Next g env) m n}
  have hsucc : ∀ a : cycle, ∃ b : cycle, Next g env a.1 b.1 := by
    intro a
    obtain ⟨m, hm⟩ := a
    rcases TransGen.head'_iff.mp hm with ⟨m', hstep, hrest⟩
    rcases ReflTransGen.cases_head_iff.mp hrest with rfl | hmore
    · exact ⟨⟨m', h⟩, hstep⟩
    · exact ⟨⟨m', (TransGen.head'_iff.mpr hmore)⟩, hstep⟩
  choose succ hnext using hsucc
  choose answer decision edge hanswer heffect hedge using hnext
  let nodeAt : Nat → cycle := fun i => succ^[i] ⟨n, h⟩
  have hrunning : ∀ fuel i s fromNodeId edgeCondition e,
      enterNext g fromNodeId edgeCondition = some (e, (nodeAt i).1) →
      ∃ s', advance g fuel (fun j => answer (nodeAt (i + j))) s fromNodeId edgeCondition
        = .running s' := by
    intro fuel
    induction fuel with
    | zero =>
      intro i s fromNodeId edgeCondition e _
      exact ⟨s, rfl⟩
    | succ fuel ih =>
      intro i s fromNodeId edgeCondition e henter
      have hstep : nodeAt (i + 1) = succ (nodeAt i) := Function.iterate_succ_apply' succ i _
      rw [advance]
      simp only [henter, Nat.add_zero, heffect]
      have hmove := hedge (nodeAt i)
      rw [← hstep] at hmove
      obtain ⟨s', hs'⟩ := ih (i + 1) (s.follow fromNodeId edgeCondition e (nodeAt i).1
        (answer (nodeAt i))) _ _ _ hmove
      refine ⟨s', ?_⟩
      rw [← hs']
      congr 1
      funext j
      rw [Nat.add_assoc, Nat.add_comm 1 j]
  refine ⟨fun i => answer (nodeAt i), fun i => hanswer (nodeAt i), ?_⟩
  intro s fromNodeId edgeCondition e _ henter hsettles
  obtain ⟨fuel, s', hs', _⟩ := hsettles
  obtain ⟨s'', hs''⟩ := hrunning fuel 0 s fromNodeId edgeCondition e henter
  simp only [Nat.zero_add] at hs''
  rw [hs''] at hs'
  cases hs'

theorem stuck_of_fails (hanswer : answer.IsOrdinary env) (hfails : n.Fails answer) :
    Stuck g env n := by
  refine ⟨fun _ => answer, fun _ => hanswer, ?_⟩
  intro s fromNodeId edgeCondition e hactive hnext hsettles
  have hlands := Node.fails_iff.mp hfails
  obtain ⟨fuel, s', hs', hstatus⟩ := hsettles
  cases fuel with
  | zero => cases hs'
  | succ fuel =>
    rw [advance] at hs'
    simp only [hnext] at hs'
    cases heffect : executeNode n answer with
    | advance decision =>
      rw [heffect] at hlands
      exact hlands trivial
    | write status waitingFor =>
      rw [heffect] at hlands
      exact hlands hanswer.statusLost
    | stay =>
      rw [heffect] at hs'
      obtain rfl := RunResult.returned.inj hs'
      rw [RunState.follow_status] at hstatus
      exact hstatus hactive
    | throws error =>
      rw [heffect] at hs'
      cases hs'

/-! ## Every entered node is entered by some call -/

theorem History.call_of_callFrom {h : History} {c : CallOf}
    (hfrom : callFrom g h.instance' c.call = some p) :
    h.call g c =
      { instance' :=
          some (advance g c.fuel c.answers ⟨p.1, []⟩ p.2.1 p.2.2).state.instance'
        trace := h.trace ++ (advance g c.fuel c.answers ⟨p.1, []⟩ p.2.1 p.2.2).state.trace } := by
  unfold History.call callEngine
  rw [hfrom]
  rfl

/-- After some calls, a call enters `n`, whatever its nodes meet from there. -/
def Arrives (g : Graph) (env : Surroundings) (n : Node) : Prop :=
  ∃ calls call p, (∀ c ∈ calls, ∀ i, (c.answers i).IsOrdinary env) ∧
    callFrom g (history g calls).instance' call = some p ∧
    ∃ before, (∀ a ∈ before, NodeAnswer.IsOrdinary env a) ∧
      ∃ s fromNodeId edgeCondition e, s.instance'.status = .active ∧
        enterNext g fromNodeId edgeCondition = some (e, n) ∧
        ∀ answers fuel, advance g (before.length + fuel) (answersThen before answers) ⟨p.1, []⟩
          p.2.1 p.2.2 = advance g fuel answers s fromNodeId edgeCondition

theorem Arrives.next (hn : Arrives g env n) (h : Next g env n m) : Arrives g env m := by
  obtain ⟨calls, call, p, hcalls, hfrom, before, hbefore, s, fromNodeId, edgeCondition, e, hactive,
    hnext, hadvance⟩ := hn
  obtain ⟨answer, decision, e', hanswer, heffect, hnext'⟩ := h
  refine ⟨calls, call, p, hcalls, hfrom, before ++ [answer], ?_,
    s.follow fromNodeId edgeCondition e n answer, n.id, decision, e', ?_, hnext', ?_⟩
  · intro a ha
    rcases List.mem_append.mp ha with hold | hnew
    · exact hbefore a hold
    · rw [List.mem_singleton.mp hnew]
      exact hanswer
  · rw [RunState.follow_status, hactive]
  · intro answers fuel
    rw [answersThen_append, List.length_append, Nat.add_assoc, hadvance, List.length_singleton,
      Nat.add_comm 1 fuel, advance]
    simp only [hnext, answersThen, heffect]

theorem Arrives.wake (hn : Arrives g env n) (h : Wakes g env n m) : Arrives g env m := by
  obtain ⟨calls, call, p, hcalls, hfrom, before, hbefore, s, fromNodeId, edgeCondition, e, hactive,
    hnext, hadvance⟩ := hn
  obtain ⟨answer, waitingFor, decision, e', hanswer, heffect, hnext'⟩ := h
  -- The call is let run up to the write of the wait; then the instance is resumed.
  let waits : CallOf :=
    { call := call, answers := answersThen before fun _ => answer, fuel := before.length + 1 }
  let row := ((s.follow fromNodeId edgeCondition e n answer).write .waiting waitingFor
    answer).instance'
  have hstatus : row.status = .waiting := RunState.write_status hanswer ..
  have hid : row.currentNodeId = n.id := RunState.write_follow_currentNodeId hanswer ..
  have hwaits : (history g (calls ++ [waits])).instance' = some row := by
    unfold history
    rw [Lib.run_append, Lib.run_cons, Lib.run_nil]
    have hcall := History.call_of_callFrom (c := waits) hfrom
    unfold history at hcall
    rw [hcall, hadvance, advance]
    simp only [hnext, heffect]
    rfl
  refine ⟨calls ++ [waits], .resume decision,
    ({ row with status := .active, waitingFor := none }, row.currentNodeId, decision), ?_, ?_, [],
    fun a ha => absurd ha List.not_mem_nil,
    ⟨{ row with status := .active, waitingFor := none }, []⟩, row.currentNodeId, decision, e', rfl, ?_,
    fun answers fuel => ?_⟩
  · intro c hc
    rcases List.mem_append.mp hc with hold | hnew
    · exact hcalls c hold
    · rw [List.mem_singleton.mp hnew]
      exact answersThen_isOrdinary hbefore fun _ => hanswer
  · rw [hwaits]
    simp only [callFrom, hstatus, if_true]
  · rw [hid]
    exact hnext'
  · rw [List.length_nil, Nat.zero_add]
    rfl

theorem Entered.arrives (h : Entered g env n) : Arrives g env n := by
  induction h with
  | @start t m e htrigger hnext =>
    refine ⟨[], .start 0, ({ id := 0, status := .active, currentNodeId := t.id }, t.id, none),
      fun c hc => absurd hc List.not_mem_nil, ?_, [], fun a ha => absurd ha List.not_mem_nil,
      ⟨{ id := 0, status := .active, currentNodeId := t.id }, []⟩, t.id, none, e, rfl, hnext,
      fun answers fuel => ?_⟩
    · show (trigger? g).map _ = _
      rw [htrigger, Option.map_some]
    · rw [List.length_nil, Nat.zero_add]
      rfl
  | next _ hnext ih => exact ih.next hnext
  | wake _ hwakes ih => exact ih.wake hwakes

theorem CallsSettle.not_stuck (h : CallsSettle g env)
    (hn : Entered g env n) : ¬Stuck g env n := by
  intro hstuck
  obtain ⟨calls, call, p, hcalls, hfrom, before, hbefore, s, fromNodeId, edgeCondition, e, hactive,
    hnext, hadvance⟩ := hn.arrives
  obtain ⟨answers, hanswers, hnever⟩ := hstuck
  obtain ⟨fuel, s', hs', hstatus⟩ := h calls call (answersThen before answers) hcalls
    (answersThen_isOrdinary hbefore hanswers) p hfrom
  refine hnever s fromNodeId edgeCondition e hactive hnext ⟨fuel, s', ?_, hstatus⟩
  rw [← hadvance, Nat.add_comm before.length fuel]
  exact advance_mono hs' (fun s'' hs'' => by cases hs'') before.length

/-! ## The law of calls -/

/-- The calls of an accepted graph settle exactly when it runs safely. -/
theorem callsSettle_iff (hok : isAccepted g = true) :
    CallsSettle g env ↔ RunsSafely g env := by
  constructor
  · intro h
    constructor
    · intro n hn hcycle
      exact h.not_stuck hn (stuck_of_cycle hcycle)
    · intro n hn answer hanswer hfails
      exact h.not_stuck hn (stuck_of_fails hanswer hfails)
  · exact RunsSafely.callsSettle hok

end

/-! ## A node that leads back to itself -/

/-- A node that leads back to itself, before an end. -/
def loopGraph (type : NodeType) (config : Config) : Graph where
  nodes :=
    [{ id := "t", type := .trigger }, { id := "n", type := type, config := config },
      { id := "e", type := .end' }]
  edges := [{ from' := "t", to' := "n" }, { from' := "n", to' := "n" }, { from' := "n", to' := "e" }]

/-- With a wait there, every call settles. -/
theorem callsSettle_waitLoop :
    CallsSettle (loopGraph .waitFor [("wait_type", .scalar (.str "event"))])
      { inTickets := true } := by
  refine (callsSettle_iff (by decide)).mpr ⟨?_, ?_⟩
  · intro n hn hcycle
    -- Neither the wait nor the end has a next node, and the trigger has no way back.
    have hwait : ∀ m, ¬Next (loopGraph .waitFor [("wait_type", .scalar (.str "event"))])
        { inTickets := true } ⟨"n", .waitFor, [("wait_type", .scalar (.str "event"))]⟩ m := by
      rintro m ⟨answer, decision, e, _, heffect, _⟩
      cases heffect
    obtain ⟨m, hstep, hback⟩ := TransGen.head'_iff.mp hcycle
    have hmem := hn.mem
    simp only [loopGraph, List.mem_cons, List.not_mem_nil, or_false] at hmem
    rcases hmem with rfl | rfl | rfl
    · obtain ⟨answer, decision, e, _, heffect, hnext⟩ := hstep
      obtain rfl := NodeEffect.advance.inj heffect
      have hfirst : enterNext (loopGraph .waitFor [("wait_type", .scalar (.str "event"))]) "t" none
          = some (⟨"t", "n", none⟩, ⟨"n", .waitFor, [("wait_type", .scalar (.str "event"))]⟩) := rfl
      rw [hfirst] at hnext
      cases hnext
      rcases ReflTransGen.cases_head_iff.mp hback with heq | ⟨m', hm', _⟩
      · exact absurd (congrArg Node.id heq) (by decide)
      · exact hwait m' hm'
    · exact hwait m hstep
    · obtain ⟨answer, decision, e, _, heffect, _⟩ := hstep
      cases heffect
  · intro n hn answer hanswer hfails
    have hmem := hn.mem
    simp only [loopGraph, List.mem_cons, List.not_mem_nil, or_false] at hmem
    rcases hmem with rfl | rfl | rfl
    · exact hfails
    · exact absurd (hanswer.statusLost.symm.trans hfails) Bool.false_ne_true
    · exact absurd (hanswer.statusLost.symm.trans hfails) Bool.false_ne_true

/-- A notification that leads back to itself is sent for ever. -/
theorem loopGraph_neverEnds :
    ¬ ∀ (g : Graph) (env : Surroundings), isAccepted g = true → CallsSettle g env := by
  intro hlaw
  let config : Config := [("subject", .scalar (.str "s")), ("body", .scalar (.str "b"))]
  let n : Node := ⟨"n", .notification, config⟩
  have hsettles := hlaw (loopGraph .notification config) { inTickets := true } (by decide)
  have hn : Entered (loopGraph .notification config) { inTickets := true } n :=
    .start (t := ⟨"t", .trigger, []⟩) (e := ⟨"t", "n", none⟩) rfl rfl
  have hanswer : NodeAnswer.IsOrdinary { inTickets := true } { ticket := some fun _ => none } :=
    ⟨rfl, rfl, by decide, rfl, rfl⟩
  have hcycle : Next (loopGraph .notification config) { inTickets := true } n n :=
    ⟨_, none, ⟨"n", "n", none⟩, hanswer, rfl, rfl⟩
  exact hsettles.not_stuck hn (stuck_of_cycle (.single hcycle))

end Prequest.Workflow
