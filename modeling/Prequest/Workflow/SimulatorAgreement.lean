import Prequest.Workflow.Simulator

/-!
# What the simulator predicts

The simulator follows the engine as long as the conditions that the engine meets
lead to the same node on the ticket of the start as on the ticket of the moment,
and no node fails on its own configuration: on a field that is refused, a template
that is no string, a `null` among its approvers, or a timer that is set too far.

* `predicts_iff`: the simulator predicts the engine exactly on the condition.
-/

namespace Prequest.Workflow

/-- A case, a graph and what the engine reads besides. -/
structure Trial where
  graph : Graph
  case' : CaseState
  entityId : Nat := 1
  instanceId : Nat := 1
  dir : Directory := {}
  isoText : Int → String := toString
  clock : Nat → Int := fun _ => 0
  substituteTemplate : String → TicketRow → String := fun template _ => template

namespace Trial

def fields (x : Trial) : TicketRow := x.case'.ticket.column x.isoText

/-- The engine after a number of moves, when every call of it succeeds and nobody else acts. -/
def real (x : Trial) : Nat → EngineState
  | 0 => engineStep x.graph x.entityId (initial x.case') (.call (.start x.instanceId))
  | n + 1 => engineStep x.graph x.entityId (x.real n)
      (.move { now := x.clock n, dir := x.dir, isoText := x.isoText })

def dry (x : Trial) (n : Nat) : SimState :=
  simulateFor x.substituteTemplate x.graph x.fields n

end Trial

def EngineState.completed (s : EngineState) : Bool :=
  s.instance'.any fun row => row.status == .completed

def EngineState.waits (s : EngineState) : Bool :=
  s.instance'.any fun row => row.status == .waiting

/-- The simulation writes nothing and does not throw, has the path of the run, returns when the run
waits or ends, stops where the run waits, and reports `terminated` when the run completes. -/
structure Predicts (x : Trial) : Prop where
  quiet : ∀ n, (x.dry n).writes = []
  answers : ∀ n, (x.dry n).error = none
  path : ∀ n, (x.dry n).context.path = (x.real n).visits.map fun v => v.node.id
  returned : ∀ n, (x.dry n).pending.isSome = (x.real n).pending.isSome
  stops : ∀ n, (x.dry n).context.stoppedAt.isSome = (x.real n).waits
  terminated : ∀ n, (x.dry n).terminated = (x.real n).completed

def CallsSucceed (x : Trial) : Prop :=
  ∀ n, ∀ v ∈ (x.real n).visits, fieldsAllowed v.node = true → v.error = none

/-- The node that `advance` enters. -/
def nextNode (g : Graph) (fromNodeId : String) (edgeCondition : Option String) : Option Node :=
  (enterNext g fromNodeId edgeCondition).map Prod.snd

/-- The node fails on what it meets. -/
def Visit.Fails (v : Visit) : Prop :=
  v.node.Fails (answerOf v.moment v.node v.before.ticket v.error)

/-- The node does not fail and, if it is a condition, leads to the same node on the fields of the
start as on the case it meets. -/
def Predicted (x : Trial) (v : Visit) : Prop :=
  ¬v.Fails ∧
    (v.node.type = .condition →
      nextNode x.graph v.node.id
          (some (conditionResult v.node.config (v.before.ticket.column x.isoText))) =
        nextNode x.graph v.node.id (some (conditionResult v.node.config x.fields)))

def Predictable (x : Trial) : Prop := ∀ n, ∀ v ∈ (x.real n).visits, Predicted x v

/-! ## One node in both modes -/

section

variable {g : Graph} {node : Node} {ctx : RunContext} {answer : NodeAnswer} {row fields : TicketRow}
  {substituteTemplate : String → TicketRow → String}

theorem executeNode_updateTicket (htype : node.type = .updateTicket) :
    executeNode node answer =
      if fieldsAllowed node = true then
        if (fieldKeys (node.config.get "fields")).getD [] = [] then .advance none
        else
          orThrow (answer.caseError (answer.error node) "update_entity_combined.not_found")
            (.advance none)
      else .throws "workflow.update_ticket_field_not_allowed" := by
  simp only [executeNode, htype]
  cases hkeys : fieldKeys (node.config.get "fields") with
  | none => simp [fieldsAllowed, hkeys]
  | some keys =>
    have hsame : (keys.filter fun k => !updateTicketAllowedFields.contains k).isEmpty =
        fieldsAllowed node := by
      rw [Bool.eq_iff_iff]
      simp [fieldsAllowed, htype, hkeys]
    simp only [hsame, Option.getD_some, List.isEmpty_iff]

/-- What the two modes make of a node: the engine first, then the simulator. -/
inductive BothModes (node : Node) (row fields : TicketRow) : NodeEffect → NodeEffect → Prop
  | ends (htype : node.type = .end') : BothModes node row fields (.write .completed none) .stay
  | waits (hstops : node.stops = true) {waitingFor : Option String} :
      BothModes node row fields (.write .waiting waitingFor) .stay
  | decides (htype : node.type = .condition) :
      BothModes node row fields (.advance (some (conditionResult node.config row)))
        (.advance (some (conditionResult node.config fields)))
  | goesOn (htype : node.type ≠ .condition) (hend : node.type ≠ .end')
      (hstops : node.stops = false) : BothModes node row fields (.advance none) (.advance none)
  /-- A field is refused. -/
  | refuses {error : String} : BothModes node row fields (.throws error) (.advance none)
  /-- A template is no string. -/
  | throws {error error' : String} : BothModes node row fields (.throws error) (.throws error')
  /-- An approver is `null`, or a timer is set too far. -/
  | failsToWait (hstops : node.stops = true) {error : String} :
      BothModes node row fields (.throws error) .stay

/-- A timer of an accepted graph has a positive delay. -/
theorem truthy_delay (haccepted : isAccepted g = true) (hnode : node ∈ g.nodes)
    (htype : node.type = .timer) : truthy (node.config.get "delay_minutes") = true := by
  have hconfig := validateNodeConfig_eq_nil haccepted hnode
  simp only [validateNodeConfig, htype, req_eq_nil] at hconfig
  split at hconfig
  · next m hdelay =>
    rw [hdelay]
    have hm : 0 < m := of_decide_eq_true hconfig
    have hne : m ≠ 0 := by omega
    simp [truthy, hne]
  · cases hconfig

/-- The tasks of an accepted graph have titles. -/
theorem tasksThrow_eq_false (haccepted : isAccepted g = true) (hnode : node ∈ g.nodes)
    (htype : node.type = .createChildTasks) : tasksThrow (node.config.get "tasks") = false := by
  have hconfig := validateNodeConfig_eq_nil haccepted hnode
  simp only [validateNodeConfig, htype, req_eq_nil] at hconfig
  split at hconfig
  · next xs htasks =>
    rw [htasks, tasksThrow, List.any_eq_false]
    intro x hx
    have htitle := List.all_eq_true.mp (Bool.and_eq_true_iff.mp hconfig).2 x hx
    unfold hasTitle at htitle
    unfold titleThrows
    cases x with
    | scalar v => cases htitle
    | fields fs =>
      simp only at htitle ⊢
      cases hlookup : fs.lookup "title" with
      | none => simp
      | some v =>
        rw [hlookup] at htitle
        cases v with
        | str text => simp
        | null => cases htitle
        | bool b => cases htitle
        | num n => cases htitle
  · cases hconfig

theorem caseError_eq_none_of_some {error : Option String} {notFound : String}
    (herror : error = none) (hticket : answer.ticket = some row) :
    answer.caseError error notFound = none := by
  rw [NodeAnswer.caseError_eq_none, herror, hticket]
  simp

/-- Both modes at a node of an accepted graph, when the call of the node succeeds. -/
theorem execute_bothModes (substituteTemplate : String → TicketRow → String) (fields : TicketRow)
    (ctx : RunContext) (haccepted : isAccepted g = true) (hnode : node ∈ g.nodes)
    (herror : fieldsAllowed node = true → answer.error node = none)
    (hdispatch : fieldsAllowed node = true → answer.dispatchError = none)
    (hticket : answer.ticket = some row) :
    BothModes node row fields (executeNode node answer)
      (dryExecute substituteTemplate fields node ctx).2 := by
  have hcase : ∀ {error : Option String} {notFound : String}, error = none →
      answer.caseError error notFound = none := fun h => caseError_eq_none_of_some h hticket
  -- only an `update_ticket` node can name a field that is refused
  have hallowed : node.type ≠ .updateTicket → fieldsAllowed node = true := by
    intro hne
    simp [fieldsAllowed, hne]
  cases htype : node.type with
  | end' =>
    simp only [executeNode, dryExecute, htype]
    exact .ends htype
  | approval =>
    have herror := herror (hallowed (by simp [htype]))
    have hstops : node.stops = true := by simp [Node.stops, htype]
    simp only [executeNode, dryExecute, htype, herror, Option.none_or]
    split
    · exact .failsToWait hstops
    · exact .waits hstops
  | waitFor =>
    simp only [executeNode, dryExecute, htype]
    exact .waits (by simp [Node.stops, htype])
  | timer =>
    have hstops : node.stops = true := by simp [Node.stops, htype]
    simp only [executeNode, dryExecute, htype, truthy_delay haccepted hnode htype, if_true]
    split
    · exact .waits hstops
    · exact .failsToWait hstops
  | condition =>
    simp only [executeNode, dryExecute, htype, hticket]
    exact .decides htype
  | updateTicket =>
    rw [executeNode_updateTicket htype]
    simp only [dryExecute, htype]
    split
    · rename_i hfields
      rw [hcase (herror hfields)]
      simp only [orThrow, ite_self]
      exact .goesOn (by simp [htype]) (by simp [htype]) (by simp [Node.stops, htype])
    · exact .refuses
  | createChildTasks =>
    simp only [executeNode, dryExecute, htype, tasksThrow_eq_false haccepted hnode htype,
      Bool.false_eq_true, if_false, hcase (hdispatch (hallowed (by simp [htype])))]
    split
    · rename_i hnone
      cases hnone
    · exact .goesOn (by simp [htype]) (by simp [htype]) (by simp [Node.stops, htype])
  | assign =>
    simp only [executeNode, dryExecute, htype, hcase (herror (hallowed (by simp [htype]))), orThrow,
      ite_self]
    exact .goesOn (by simp [htype]) (by simp [htype]) (by simp [Node.stops, htype])
  | httpRequest =>
    simp only [executeNode, dryExecute, htype]
    split
    · exact .throws
    · exact .goesOn (by simp [htype]) (by simp [htype]) (by simp [Node.stops, htype])
  | trigger =>
    simp only [executeNode, dryExecute, htype]
    exact .goesOn (by simp [htype]) (by simp [htype]) (by simp [Node.stops, htype])
  | notification =>
    simp only [executeNode, dryExecute, htype]
    exact .goesOn (by simp [htype]) (by simp [htype]) (by simp [Node.stops, htype])
  | other name =>
    simp only [executeNode, dryExecute, htype]
    exact .goesOn (by simp [htype]) (by simp [htype]) (by simp [Node.stops, htype])

end

/-! ## One move in both modes -/

section

variable {entityId : Nat} {m : Moment} {s : EngineState} {row : InstanceRow} {fromNodeId : String}
  {edgeCondition : Option String} {e : Edge} {node : Node} {status : InstanceStatus}

def visitAnswer (entityId : Nat) (m : Moment) (s : EngineState) (row : InstanceRow) (node : Node) :
    NodeAnswer :=
  answerOf m node s.world.case'.ticket (nodeCall m row.id entityId node s.world).2

/-- The instance has the status. -/
def EngineState.IsIn (s : EngineState) (status : InstanceStatus) : Prop :=
  ∃ row, s.instance' = some row ∧ row.status = status

theorem EngineState.IsIn.completed (h : s.IsIn status) : s.completed = (status == .completed) := by
  obtain ⟨row, hrow, rfl⟩ := h
  simp [EngineState.completed, hrow]

theorem EngineState.IsIn.waits (h : s.IsIn status) : s.waits = (status == .waiting) := by
  obtain ⟨row, hrow, rfl⟩ := h
  simp [EngineState.waits, hrow]

theorem visitNode_of_advance {decision : Option String}
    (h : executeNode node (visitAnswer entityId m s row node) = .advance decision) :
    (visitNode entityId m s row fromNodeId edgeCondition e node).pending =
        some (node.id, decision) ∧
      (visitNode entityId m s row fromNodeId edgeCondition e node).IsIn row.status := by
  unfold visitAnswer at h
  unfold visitNode
  simp only [h]
  exact ⟨trivial, _, rfl, RunState.follow_status ..⟩

theorem visitNode_of_throws {error : String}
    (h : executeNode node (visitAnswer entityId m s row node) = .throws error) :
    (visitNode entityId m s row fromNodeId edgeCondition e node).pending = none ∧
      (visitNode entityId m s row fromNodeId edgeCondition e node).IsIn row.status := by
  unfold visitAnswer at h
  unfold visitNode
  simp only [h]
  exact ⟨trivial, _, rfl, RunState.follow_status ..⟩

theorem visitNode_of_write {waitingFor : Option String} (hkept : m.statusLost = false)
    (h : executeNode node (visitAnswer entityId m s row node) = .write status waitingFor) :
    (visitNode entityId m s row fromNodeId edgeCondition e node).pending = none ∧
      (visitNode entityId m s row fromNodeId edgeCondition e node).IsIn status := by
  unfold visitAnswer at h
  unfold visitNode
  simp only [h]
  refine ⟨trivial, _, rfl, ?_⟩
  simp [RunState.write, answerOf, hkept]

end

/-- The next calls of `advance` in both modes are none, or lead to the same node. -/
inductive PendingAgree (g : Graph) (s : EngineState) (d : SimState) : Prop where
  | ended (hs : s.pending = none) (hd : d.pending = none)
  | same {row : InstanceRow} {fromNodeId : String} {edgeCondition edgeCondition' : Option String}
      (hrow : s.instance' = some row) (hactive : row.status = .active)
      (hs : s.pending = some (fromNodeId, edgeCondition))
      (hd : d.pending = some (fromNodeId, edgeCondition'))
      (hnext : nextNode g fromNodeId edgeCondition = nextNode g fromNodeId edgeCondition')

/-- How the run and the simulation stand after the same number of moves. -/
structure Agree (g : Graph) (s : EngineState) (d : SimState) : Prop where
  path : d.context.path = s.visits.map fun v => v.node.id
  error : d.error = none
  stops : d.context.stoppedAt.isSome = s.waits
  terminated : d.terminated = s.completed
  pending : PendingAgree g s d

theorem nextNode_eq_some {g : Graph} {fromNodeId : String} {edgeCondition : Option String}
    {node : Node} : nextNode g fromNodeId edgeCondition = some node ↔
      ∃ e, enterNext g fromNodeId edgeCondition = some (e, node) := by
  unfold nextNode
  rw [Option.map_eq_some_iff]
  constructor
  · rintro ⟨⟨e, node'⟩, hnext, rfl⟩
    exact ⟨e, hnext⟩
  · rintro ⟨e, hnext⟩
    exact ⟨(e, node), hnext, rfl⟩

section

variable {x : Trial} {n : Nat}

/-- The move of a run. -/
def Trial.moment (x : Trial) (n : Nat) : Moment where
  now := x.clock n
  dir := x.dir
  isoText := x.isoText

variable {node : Node} {row : InstanceRow} {fromNodeId : String} {edgeCondition : Option String}

theorem real_enter (hrow : (x.real n).instance' = some row)
    (hs : (x.real n).pending = some (fromNodeId, edgeCondition))
    (hnode : nextNode x.graph fromNodeId edgeCondition = some node) :
    ∃ e, x.real (n + 1) =
      visitNode x.entityId (x.moment n) (x.real n) row fromNodeId edgeCondition e node := by
  obtain ⟨e, hnext⟩ := nextNode_eq_some.mp hnode
  have hentering : (x.real n).entering x.graph =
      some (row, fromNodeId, edgeCondition, e, node) := by
    simp [EngineState.entering, hrow, hs, hnext]
  refine ⟨e, ?_⟩
  show engineStep x.graph x.entityId (x.real n) (.move (x.moment n)) = _
  simp only [engineStep, hentering]

theorem dry_enter (hd : (x.dry n).pending = some (fromNodeId, edgeCondition))
    (hnode : nextNode x.graph fromNodeId edgeCondition = some node) :
    (x.dry (n + 1)).context =
        (dryExecute x.substituteTemplate x.fields node (x.dry n).context).1 ∧
      (x.dry (n + 1)).pending =
        (dryExecute x.substituteTemplate x.fields node (x.dry n).context).2.pending node ∧
      (x.dry (n + 1)).error =
        (dryExecute x.substituteTemplate x.fields node (x.dry n).context).2.thrown := by
  obtain ⟨e, hnext⟩ := nextNode_eq_some.mp hnode
  have hmove : x.dry (n + 1) = simMove x.substituteTemplate x.graph x.fields (x.dry n) := rfl
  rw [hmove]
  simp only [simMove, hd, hnext]
  exact ⟨trivial, trivial, trivial⟩

theorem nextNode_node? (h : nextNode x.graph fromNodeId edgeCondition = some node) :
    x.graph.node? node.id = some node := by
  obtain ⟨e, hnext⟩ := nextNode_eq_some.mp h
  have hfound := (enterNext_eq_some.mp hnext).2
  have hid : node.id = e.to' := by simpa using List.find?_some hfound
  rw [hid]
  exact hfound

theorem nextNode_mem
    (h : nextNode x.graph fromNodeId edgeCondition = some node) : node ∈ x.graph.nodes := by
  obtain ⟨e, hnext⟩ := nextNode_eq_some.mp h
  exact List.mem_of_find?_eq_some (enterNext_eq_some.mp hnext).2

theorem end_both {edgeCondition' : Option String} (hrow : (x.real n).instance' = some row)
    (hs : (x.real n).pending = some (fromNodeId, edgeCondition))
    (hd : (x.dry n).pending = some (fromNodeId, edgeCondition'))
    (hnone : nextNode x.graph fromNodeId edgeCondition = none)
    (hnone' : nextNode x.graph fromNodeId edgeCondition' = none) :
    x.real (n + 1) = { x.real n with pending := none } ∧
      x.dry (n + 1) = { x.dry n with pending := none } := by
  have hnext := Option.map_eq_none_iff.mp hnone
  have hnext' := Option.map_eq_none_iff.mp hnone'
  constructor
  · show engineStep x.graph x.entityId (x.real n) (.move (x.moment n)) = _
    have hentering : (x.real n).entering x.graph = none := by
      simp [EngineState.entering, hrow, hs, hnext]
    simp only [engineStep, hentering]
  · show simMove x.substituteTemplate x.graph x.fields (x.dry n) = _
    simp only [simMove, hd, hnext']

theorem stay_both (hs : (x.real n).pending = none) (hd : (x.dry n).pending = none) :
    x.real (n + 1) = { x.real n with pending := none } ∧ x.dry (n + 1) = x.dry n := by
  constructor
  · show engineStep x.graph x.entityId (x.real n) (.move (x.moment n)) = _
    have hentering : (x.real n).entering x.graph = none := by
      unfold EngineState.entering
      rw [hs]
      cases (x.real n).instance' <;> rfl
    simp only [engineStep, hentering]
  · show simMove x.substituteTemplate x.graph x.fields (x.dry n) = _
    simp only [simMove, hd]

theorem agree_zero (haccepted : isAccepted x.graph = true) :
    Agree x.graph (x.real 0) (x.dry 0) := by
  obtain ⟨trigger, htriggers⟩ := (validate_eq_nil haccepted).1
  have hfirst : trigger? x.graph = some trigger := by
    unfold trigger?
    rw [← List.head?_filter]
    show (triggers x.graph).head? = _
    rw [htriggers]
    rfl
  have hreal : x.real 0 =
      { initial x.case' with
        instance' := some { id := x.instanceId, status := .active, currentNodeId := trigger.id }
        pending := some (trigger.id, none) } := by
    simp [Trial.real, engineStep, callFrom, initial, hfirst]
  have hdry : x.dry 0 = { pending := some (trigger.id, none) } := by
    simp [Trial.dry, simulateFor, hfirst]
  rw [hreal, hdry]
  exact ⟨rfl, rfl, rfl, rfl, .same rfl rfl rfl rfl rfl⟩

def visitAt (x : Trial) (n : Nat) (row : InstanceRow) (node : Node) : Visit where
  node := node
  moment := x.moment n
  before := (x.real n).world.case'
  after := (nodeCall (x.moment n) row.id x.entityId node (x.real n).world).1.case'
  error := (nodeCall (x.moment n) row.id x.entityId node (x.real n).world).2

variable {e : Edge}

/-- The next move enters `node` in both modes, after the run has come to `row`. -/
structure Enters (x : Trial) (n : Nat) (row : InstanceRow) (node : Node) : Prop where
  active : row.status = .active
  mem : node ∈ x.graph.nodes
  real : ∃ fromNodeId edgeCondition e, x.real (n + 1) =
    visitNode x.entityId (x.moment n) (x.real n) row fromNodeId edgeCondition e node
  context : (x.dry (n + 1)).context =
    (dryExecute x.substituteTemplate x.fields node (x.dry n).context).1
  pending : (x.dry (n + 1)).pending =
    (dryExecute x.substituteTemplate x.fields node (x.dry n).context).2.pending node
  error : (x.dry (n + 1)).error =
    (dryExecute x.substituteTemplate x.fields node (x.dry n).context).2.thrown
  before : Agree x.graph (x.real n) (x.dry n) ∧ (x.real n).IsIn .active

theorem Enters.visits (h : Enters x n row node) :
    (x.real (n + 1)).visits = (x.real n).visits ++ [visitAt x n row node] := by
  obtain ⟨fromNodeId, edgeCondition, e, hreal⟩ := h.real
  rw [hreal, visitNode_visits]
  rfl

theorem Enters.path (h : Enters x n row node) :
    (x.dry (n + 1)).context.path = (x.real (n + 1)).visits.map fun v => v.node.id := by
  rw [h.context, dryExecute_path, h.before.1.path, h.visits, List.map_append]
  rfl

theorem Enters.stoppedAt (h : Enters x n row node) :
    (x.dry (n + 1)).context.stoppedAt.isSome = node.stops := by
  rw [h.context, dryExecute_stoppedAt, h.before.1.stops, h.before.2.waits]
  rfl

theorem Enters.terminated (h : Enters x n row node) :
    (x.dry (n + 1)).terminated = (node.type == .end') := by
  show (x.dry (n + 1)).context.events.any _ = _
  rw [h.context, dryExecute_terminated]
  have hbefore : ((x.dry n).context.events.any fun e => e.eventType == "instance_completed") = false :=
    h.before.1.terminated.trans h.before.2.completed
  rw [hbefore, Bool.false_or]

/-- The effects of the two modes at the node that the next move enters. -/
theorem Enters.bothModes (h : Enters x n row node) (haccepted : isAccepted x.graph = true)
    (herror : fieldsAllowed node = true → (visitAt x n row node).error = none) :
    BothModes node ((x.real n).world.case'.ticket.column x.isoText) x.fields
      (executeNode node (visitAnswer x.entityId (x.moment n) (x.real n) row node))
      (dryExecute x.substituteTemplate x.fields node (x.dry n).context).2 := by
  refine execute_bothModes _ _ _ haccepted h.mem ?_ ?_ rfl
  · intro hfields
    have hcall : (nodeCall (x.moment n) row.id x.entityId node (x.real n).world).2 = none :=
      herror hfields
    simp [visitAnswer, answerOf, hcall]
  · intro hfields
    have hcall : (nodeCall (x.moment n) row.id x.entityId node (x.real n).world).2 = none :=
      herror hfields
    simp [visitAnswer, answerOf, hcall]

theorem Enters.agree (h : Enters x n row node) (haccepted : isAccepted x.graph = true)
    (herror : fieldsAllowed node = true → (visitAt x n row node).error = none)
    (hpredicted : Predicted x (visitAt x n row node)) :
    Agree x.graph (x.real (n + 1)) (x.dry (n + 1)) := by
  obtain ⟨fromNodeId, edgeCondition, e, hreal⟩ := h.real
  have hboth := h.bothModes haccepted herror
  have hlands := not_not.mp (mt Node.fails_iff.mpr hpredicted.1)
  have hpending := h.pending
  have hthrown := h.error
  -- what the engine writes is in the row after the move
  generalize heffect : executeNode node (visitAnswer x.entityId (x.moment n) (x.real n) row node) =
    effect at hboth
  change (executeNode node (visitAnswer x.entityId (x.moment n) (x.real n) row node)).Lands _ at hlands
  rw [heffect] at hlands
  generalize (dryExecute x.substituteTemplate x.fields node (x.dry n).context).2 = dryEffect
    at hboth hpending hthrown
  cases hboth with
  | ends htype =>
    have hwrite : (x.real (n + 1)).pending = none ∧ (x.real (n + 1)).IsIn .completed := by
      rw [hreal]
      exact visitNode_of_write rfl heffect
    refine ⟨h.path, hthrown, ?_, ?_, .ended hwrite.1 hpending⟩
    · rw [h.stoppedAt, hwrite.2.waits, Node.stops, htype]
      rfl
    · rw [h.terminated, hwrite.2.completed, htype]
      rfl
  | waits hstops =>
    have hwrite : (x.real (n + 1)).pending = none ∧ (x.real (n + 1)).IsIn .waiting := by
      rw [hreal]
      exact visitNode_of_write rfl heffect
    refine ⟨h.path, hthrown, ?_, ?_, .ended hwrite.1 hpending⟩
    · rw [h.stoppedAt, hwrite.2.waits, hstops]
      rfl
    · have hend : node.type ≠ .end' := by
        intro hend
        simp [Node.stops, hend] at hstops
      rw [h.terminated, hwrite.2.completed, beq_eq_false_iff_ne.mpr hend]
      rfl
  | decides htype =>
    obtain ⟨hs, hin⟩ : (x.real (n + 1)).pending = some (node.id, some (conditionResult node.config
          ((x.real n).world.case'.ticket.column x.isoText))) ∧
        (x.real (n + 1)).IsIn row.status := by
      rw [hreal]
      exact visitNode_of_advance heffect
    rw [h.active] at hin
    obtain ⟨row', hrow', hactive'⟩ := hin
    refine ⟨h.path, hthrown, ?_, ?_, .same hrow' hactive' hs hpending (hpredicted.2 htype)⟩
    · rw [h.stoppedAt, EngineState.IsIn.waits ⟨row', hrow', hactive'⟩, Node.stops, htype]
      rfl
    · rw [h.terminated, EngineState.IsIn.completed ⟨row', hrow', hactive'⟩, htype]
      rfl
  | goesOn htype hend hstops =>
    obtain ⟨hs, hin⟩ : (x.real (n + 1)).pending = some (node.id, none) ∧
        (x.real (n + 1)).IsIn row.status := by
      rw [hreal]
      exact visitNode_of_advance heffect
    rw [h.active] at hin
    obtain ⟨row', hrow', hactive'⟩ := hin
    refine ⟨h.path, hthrown, ?_, ?_, .same hrow' hactive' hs hpending rfl⟩
    · rw [h.stoppedAt, EngineState.IsIn.waits ⟨row', hrow', hactive'⟩, hstops]
      rfl
    · rw [h.terminated, EngineState.IsIn.completed ⟨row', hrow', hactive'⟩,
        beq_eq_false_iff_ne.mpr hend]
      rfl
  | refuses => exact absurd hlands NodeEffect.not_lands_throws
  | throws => exact absurd hlands NodeEffect.not_lands_throws
  | failsToWait _ => exact absurd hlands NodeEffect.not_lands_throws

theorem move_cases (h : Agree x.graph (x.real n) (x.dry n)) :
    ((x.real (n + 1)).visits = (x.real n).visits ∧ Agree x.graph (x.real (n + 1)) (x.dry (n + 1))) ∨
      ∃ row node, Enters x n row node := by
  cases h.pending with
  | ended hs hd =>
    obtain ⟨hreal, hdry⟩ := stay_both hs hd
    rw [hreal, hdry]
    exact .inl ⟨rfl, h.path, h.error, h.stops, h.terminated, .ended rfl hd⟩
  | @same row fromNodeId edgeCondition edgeCondition' hrow hactive hs hd hnext =>
    cases hnode : nextNode x.graph fromNodeId edgeCondition with
    | none =>
      obtain ⟨hreal, hdry⟩ := end_both hrow hs hd hnode (hnext ▸ hnode)
      rw [hreal, hdry]
      exact .inl ⟨rfl, h.path, h.error, h.stops, h.terminated, .ended rfl rfl⟩
    | some node =>
      obtain ⟨e, hreal⟩ := real_enter hrow hs hnode
      obtain ⟨hcontext, hpending, herror⟩ := dry_enter hd (hnext ▸ hnode)
      exact .inr ⟨row, node, hactive, nextNode_mem hnode, ⟨fromNodeId, edgeCondition, e, hreal⟩,
        hcontext, hpending, herror, h, row, hrow, hactive⟩

theorem agree_succ (haccepted : isAccepted x.graph = true) (hcalls : CallsSucceed x)
    (h : Agree x.graph (x.real n) (x.dry n))
    (hpredicted : ∀ v ∈ (x.real (n + 1)).visits, Predicted x v) :
    Agree x.graph (x.real (n + 1)) (x.dry (n + 1)) := by
  rcases move_cases h with ⟨_, hagree⟩ | ⟨row, node, henters⟩
  · exact hagree
  · have hlast : visitAt x n row node ∈ (x.real (n + 1)).visits := by
      rw [henters.visits]
      exact List.mem_append_right _ (List.mem_singleton.mpr rfl)
    exact henters.agree haccepted (hcalls (n + 1) _ hlast) (hpredicted _ hlast)

/-- A node at which the simulator is right does not fail. -/
theorem Enters.not_fails (h : Enters x n row node) (haccepted : isAccepted x.graph = true)
    (herror : fieldsAllowed node = true → (visitAt x n row node).error = none)
    (hpredicts : Predicts x) : ¬(visitAt x n row node).Fails := by
  intro hfails
  obtain ⟨fromNodeId, edgeCondition, e, hreal⟩ := h.real
  have hboth := h.bothModes haccepted herror
  have hlands : ¬(executeNode node (visitAnswer x.entityId (x.moment n) (x.real n) row node)).Lands
      (visitAnswer x.entityId (x.moment n) (x.real n) row node) := Node.fails_iff.mp hfails
  have hpending := h.pending
  have hthrown := h.error
  generalize heffect : executeNode node (visitAnswer x.entityId (x.moment n) (x.real n) row node) =
    effect at hboth hlands
  generalize (dryExecute x.substituteTemplate x.fields node (x.dry n).context).2 = dryEffect
    at hboth hpending hthrown
  cases hboth with
  | ends _ => exact hlands rfl
  | waits _ => exact hlands rfl
  | decides _ => exact hlands trivial
  | goesOn _ _ _ => exact hlands trivial
  | refuses =>
    -- the engine throws at the node, and the simulation goes on
    have hreturned := hpredicts.returned (n + 1)
    rw [hpending, hreal, (visitNode_of_throws heffect).1] at hreturned
    cases hreturned
  | throws =>
    rw [hpredicts.answers (n + 1)] at hthrown
    cases hthrown
  | failsToWait hstops =>
    -- the simulation stops as if the engine waited there
    have hwaits := hpredicts.stops (n + 1)
    rw [h.stoppedAt, hstops, hreal, (visitNode_of_throws heffect).2.waits, h.active] at hwaits
    cases hwaits

theorem Enters.predicted (h : Enters x n row node) (haccepted : isAccepted x.graph = true)
    (herror : fieldsAllowed node = true → (visitAt x n row node).error = none)
    (hpredicts : Predicts x) : Predicted x (visitAt x n row node) := by
  refine ⟨h.not_fails haccepted herror hpredicts, ?_⟩
  intro htype
  have htype : node.type = .condition := htype
  obtain ⟨fromNodeId, edgeCondition, e, hreal⟩ := h.real
  let row' := (x.real n).world.case'.ticket.column x.isoText
  have heffect : executeNode node (visitAnswer x.entityId (x.moment n) (x.real n) row node) =
      .advance (some (conditionResult node.config row')) := by
    simp only [executeNode, htype]
    rfl
  obtain ⟨hs, row'', hrow'', _⟩ : (x.real (n + 1)).pending =
      some (node.id, some (conditionResult node.config row')) ∧
        (x.real (n + 1)).IsIn row.status := by
    rw [hreal]
    exact visitNode_of_advance heffect
  have hd : (x.dry (n + 1)).pending =
      some (node.id, some (conditionResult node.config x.fields)) := by
    rw [h.pending]
    simp [dryExecute, htype, NodeEffect.pending]
  have hend : node.type ≠ .end' := by simp [htype]
  have hsome : ∀ decision, ∃ next, nextNode x.graph node.id (some decision) = some next := by
    intro decision
    obtain ⟨e', next, hnext⟩ := exists_enterNext haccepted h.mem hend (some decision)
    exact ⟨next, nextNode_eq_some.mpr ⟨e', hnext⟩⟩
  obtain ⟨a, ha⟩ := hsome (conditionResult node.config row')
  obtain ⟨b, hb⟩ := hsome (conditionResult node.config x.fields)
  show nextNode x.graph node.id (some (conditionResult node.config row')) =
    nextNode x.graph node.id (some (conditionResult node.config x.fields))
  -- the paths after the next move end in the two nodes
  obtain ⟨e', hreal'⟩ := real_enter hrow'' hs ha
  obtain ⟨hcontext', _⟩ := dry_enter hd hb
  have hpath := hpredicts.path (n + 1 + 1)
  rw [hcontext', dryExecute_path, hpredicts.path (n + 1), hreal', visitNode_visits, List.map_append,
    List.append_cancel_left_eq] at hpath
  have hid : b.id = a.id := List.head_eq_of_cons_eq hpath
  have hfound := nextNode_node? hb
  rw [hid, nextNode_node? ha] at hfound
  rw [ha, hb, Option.some.inj hfound]

/-- The simulator predicts the engine exactly when every condition that the engine meets leads to the
same node on the fields of the start, and no node it meets fails on its configuration. -/
theorem predicts_iff (haccepted : isAccepted x.graph = true) (hcalls : CallsSucceed x) :
    Predicts x ↔ Predictable x := by
  constructor
  · intro hpredicts
    have hall : ∀ n, Agree x.graph (x.real n) (x.dry n) ∧
        ∀ v ∈ (x.real n).visits, Predicted x v := by
      intro n
      induction n with
      | zero =>
        refine ⟨agree_zero haccepted, ?_⟩
        intro v hv
        have hnone : (x.real 0).visits = [] := by
          simp only [Trial.real, engineStep]
          split <;> rfl
        rw [hnone] at hv
        cases hv
      | succ n ih =>
        have hvisits : ∀ v ∈ (x.real (n + 1)).visits, Predicted x v := by
          rcases move_cases ih.1 with ⟨hvisits, _⟩ | ⟨row, node, henters⟩
          · rw [hvisits]
            exact ih.2
          · intro v hv
            have hcall := hcalls (n + 1) v hv
            rw [henters.visits] at hv
            rcases List.mem_append.mp hv with hv | hv
            · exact ih.2 v hv
            · obtain rfl := List.mem_singleton.mp hv
              exact henters.predicted haccepted hcall hpredicts
        exact ⟨agree_succ haccepted hcalls ih.1 hvisits, hvisits⟩
    exact fun n => (hall n).2
  · intro hpredictable
    have hall : ∀ n, Agree x.graph (x.real n) (x.dry n) := by
      intro n
      induction n with
      | zero => exact agree_zero haccepted
      | succ n ih => exact agree_succ haccepted hcalls ih (hpredictable (n + 1))
    refine ⟨fun n => simulateFor_writes x.graph n, fun n => (hall n).error, fun n => (hall n).path,
      ?_, fun n => (hall n).stops, fun n => (hall n).terminated⟩
    intro n
    cases (hall n).pending with
    | ended hs hd => rw [hs, hd]
    | same hrow hactive hs hd hnext =>
      rw [hs, hd]
      rfl

end

/-! ## Two graphs -/

def managerId : String := "0b6f1c1e-6d2a-4c57-9a53-2f1f0c7d9e11"

/-- A condition on the priority decides whether a person is asked. -/
def askIfHigh (first : List Node) (edges : List Edge) : Graph where
  nodes :=
    { id := "start", type := .trigger } :: first ++
      [{ id := "check", type := .condition
         config := [("field", .scalar (.str "priority")), ("operator", .scalar (.str "equals")),
           ("value", .scalar (.str "high"))] },
        { id := "ask", type := .approval, config := [("approver_person_id", .scalar (.str managerId))] },
        { id := "done", type := .end' }]
  edges :=
    edges ++
      [{ from' := "check", to' := "ask", condition := some "true" },
        { from' := "check", to' := "done", condition := some "false" },
        { from' := "ask", to' := "done", condition := some "approved" },
        { from' := "ask", to' := "done", condition := some "rejected" }]

def caseOf (priority : String) : CaseState where
  ticket := { status := "new", statusCategory := "new", title := "Printer", priority := priority }

def checked : Trial where
  graph := askIfHigh [] [{ from' := "start", to' := "check" }]
  case' := caseOf "high"

def raised : Trial where
  graph := askIfHigh
    [{ id := "raise", type := .updateTicket
       config := [("fields", .fields [("priority", .str "high")])] }]
    [{ from' := "start", to' := "raise" }, { from' := "raise", to' := "check" }]
  case' := caseOf "low"

theorem visits_of_ended {x : Trial} {n : Nat} (h : (x.real n).pending = none) (k : Nat) :
    (x.real (n + k)).visits = (x.real n).visits ∧ (x.real (n + k)).pending = none := by
  induction k with
  | zero => exact ⟨rfl, h⟩
  | succ k ih =>
    have hentering : (x.real (n + k)).entering x.graph = none := by
      unfold EngineState.entering
      rw [ih.2]
      cases (x.real (n + k)).instance' <;> rfl
    have hmove : x.real (n + k + 1) = { x.real (n + k) with pending := none } := by
      show engineStep x.graph x.entityId (x.real (n + k)) (.move (x.moment (n + k))) = _
      simp only [engineStep, hentering]
    rw [← Nat.add_assoc, hmove]
    exact ⟨ih.1, rfl⟩

theorem callsSucceed_of_ended {x : Trial} {n : Nat} (hended : (x.real n).pending = none)
    (hfirst : ∀ k, k ≤ n → ∀ v ∈ (x.real k).visits, v.error = none) : CallsSucceed x := by
  intro k v hv _
  by_cases hk : k ≤ n
  · exact hfirst k hk v hv
  · have hvisits := (visits_of_ended hended (k - n)).1
    rw [show n + (k - n) = k by omega] at hvisits
    rw [hvisits] at hv
    exact hfirst n (by omega) v hv

/-- The simulator ends at `done`, and the engine waits at `ask`. -/
theorem raised_differs :
    isAccepted raised.graph = true ∧ CallsSucceed raised ∧ ¬ Predicts raised := by
  refine ⟨by decide +kernel, ?_, ?_⟩
  · have hended : (raised.real 3).pending = none := by decide +kernel
    exact callsSucceed_of_ended hended (by decide +kernel)
  · intro h
    have hpath := h.path 3
    revert hpath
    decide +kernel

/-- Without a change before it, the check is predicted. -/
theorem checked_predicted : isAccepted checked.graph = true ∧ CallsSucceed checked ∧
    (Predicts checked ↔ Predictable checked) :=
  have haccepted : isAccepted checked.graph = true := by decide +kernel
  have hended : (checked.real 2).pending = none := by decide +kernel
  have hcalls : CallsSucceed checked := callsSucceed_of_ended hended (by decide +kernel)
  ⟨haccepted, hcalls, predicts_iff haccepted hcalls⟩

end Prequest.Workflow
