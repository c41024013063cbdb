import Prequest.Workflow.ApprovalNode

/-!
# Compiled approvals

The approval that a room rule asks for is compiled to a workflow graph: a
trigger, one approval node with the list of approvers and the threshold, and an
end node for each of the two decisions.

* `start_compiled`, `resume_compiled`: what the graph does when it is run.
-/

namespace Prequest.Workflow

open Prequest.Lib Prequest.Approval
open Prequest.Booking (Approver ApproverType alreadyAsked insertApprovers insertApprovers_rows)

/-! ## The compiler -/

/-- `approval_config`, as it is stored. -/
structure ApprovalConfigJson where
  requiredApprovers : Option Value
  threshold : Option Value := none

structure RequiredApprover where
  type : ApproverType
  id : String
  deriving DecidableEq, Repr

structure CompileResult where
  graphDefinition : Graph
  name : String
  deriving DecidableEq, Repr

/-- The checks of one entry. -/
def parseApprover (i : Nat) : Item → Except String RequiredApprover
  | .scalar _ =>
      .error s!"approval_config.required_approvers[{i}] must be an object with \x7btype, id\x7d."
  | .fields fs =>
      let type? : Option ApproverType :=
        if fs.lookup "type" = some (.str "person") then some .person
        else if fs.lookup "type" = some (.str "team") then some .team
        else none
      match type?, fs.lookup "id" with
      | none, _ =>
          .error s!"approval_config.required_approvers[{i}].type must be 'person' or 'team'."
      | some type, some (.str id) =>
          if id.isEmpty then
            .error s!"approval_config.required_approvers[{i}].id must be a non-empty string."
          else .ok { type := type, id := id }
      | some _, _ =>
          .error s!"approval_config.required_approvers[{i}].id must be a non-empty string."

/-- The checks of the entries, from the `i`-th on. -/
def parseApprovers : Nat → List Item → Except String (List RequiredApprover)
  | _, [] => .ok []
  | i, item :: items =>
      match parseApprover i item with
      | .error e => .error e
      | .ok approver => (parseApprovers (i + 1) items).map (approver :: ·)

def requiredApprovers (config : ApprovalConfigJson) : Except String (List RequiredApprover) :=
  match config.requiredApprovers with
  | none | some (.scalar .null) =>
      .error "approval_config.required_approvers is required and must be a non-empty array."
  | some (.items []) => .error "approval_config.required_approvers must not be empty."
  | some (.items items) => parseApprovers 0 items
  | some _ =>
      .error "approval_config.required_approvers must be an array of \x7btype, id\x7d entries."

def thresholdText : ChainThreshold → String
  | .all => "all"
  | .any => "any"

def approvalMain (approvers : List RequiredApprover) (threshold : ChainThreshold) : Node where
  id := "approval_main"
  type := .approval
  config :=
    [("required_approvers", .items (approvers.map fun a => approverItem a.type a.id)),
     ("threshold", .scalar (.str (thresholdText threshold)))]

def approvalGraph (approvers : List RequiredApprover) (threshold : ChainThreshold) : Graph where
  nodes :=
    [{ id := "trigger", type := .trigger },
     approvalMain approvers threshold,
     { id := "end_success", type := .end', config := [("outcome", .scalar (.str "approved"))] },
     { id := "end_failure", type := .end', config := [("outcome", .scalar (.str "rejected"))] }]
  edges :=
    [{ from' := "trigger", to' := "approval_main" },
     { from' := "approval_main", to' := "end_success", condition := some "approved" },
     { from' := "approval_main", to' := "end_failure", condition := some "rejected" }]

/-- `compile`. The type of the rule does not show in the graph. -/
def compile (config : ApprovalConfigJson) (ruleName : String) : Except String CompileResult :=
  match requiredApprovers config with
  | .error e => .error e
  | .ok approvers =>
      match nodeThreshold config.threshold with
      | none =>
          .error
            "approval_config.threshold must be 'all' or 'any' (or omitted, defaulting to 'all')."
      | some threshold =>
          .ok
            { graphDefinition := approvalGraph approvers threshold
              name := ruleName ++ " approval workflow" }

/-! ## Configurations that compile -/

def RequiredApprover.item (a : RequiredApprover) : Item := approverItem a.type a.id

def encode (approvers : List RequiredApprover) (threshold : Option ChainThreshold) :
    ApprovalConfigJson where
  requiredApprovers := some (.items (approvers.map RequiredApprover.item))
  threshold := threshold.map fun t => .scalar (.str (thresholdText t))

theorem parseApprover_item (a : RequiredApprover) (i : Nat) (hid : a.id ≠ "") :
    parseApprover i a.item = .ok a := by
  obtain ⟨type, id⟩ := a
  have hnonempty : id.isEmpty = false := by simpa using hid
  cases type with
  | person => simp [RequiredApprover.item, approverItem, parseApprover, List.lookup_cons, hnonempty]
  | team => simp [RequiredApprover.item, approverItem, parseApprover, List.lookup_cons, hnonempty]

variable {approvers : List RequiredApprover}

theorem parseApprovers_items (hids : ∀ a ∈ approvers, a.id ≠ "") (i : Nat) :
    parseApprovers i (approvers.map RequiredApprover.item) = .ok approvers := by
  induction approvers generalizing i with
  | nil => rfl
  | cons a approvers ih =>
    obtain ⟨ha, hrest⟩ := List.forall_mem_cons.mp hids
    rw [List.map_cons, parseApprovers, parseApprover_item a i ha, ih hrest]
    rfl

@[simp] theorem nodeThreshold_text (threshold : ChainThreshold) :
    nodeThreshold (some (.scalar (.str (thresholdText threshold)))) = some threshold := by
  cases threshold <;> decide

theorem compile_encode {threshold : Option ChainThreshold}
    (hsome : approvers ≠ []) (hids : ∀ a ∈ approvers, a.id ≠ "") (ruleName : String) :
    compile (encode approvers threshold) ruleName = .ok
      { graphDefinition := approvalGraph approvers (threshold.getD .all)
        name := ruleName ++ " approval workflow" } := by
  have hparse : requiredApprovers (encode approvers threshold) = .ok approvers := by
    obtain ⟨a, rest, rfl⟩ := List.exists_cons_of_ne_nil hsome
    exact parseApprovers_items hids 0
  have hthreshold : nodeThreshold (encode approvers threshold).threshold =
      some (threshold.getD .all) := by
    cases threshold with
    | none => rfl
    | some threshold => exact nodeThreshold_text threshold
  unfold compile
  rw [hparse, hthreshold]

theorem parseApprovers_ne_nil {i : Nat} {item : Item} {items : List Item}
    (h : parseApprovers i (item :: items) = .ok approvers) : approvers ≠ [] := by
  rw [parseApprovers] at h
  cases hfirst : parseApprover i item with
  | error e =>
    rw [hfirst] at h
    cases h
  | ok approver =>
    rw [hfirst] at h
    cases hrest : parseApprovers (i + 1) items with
    | error e =>
      rw [hrest] at h
      cases h
    | ok rest =>
      rw [hrest] at h
      cases h
      exact List.cons_ne_nil _ _

theorem compile_eq_ok {config : ApprovalConfigJson} {ruleName : String} {result : CompileResult}
    (h : compile config ruleName = .ok result) :
    ∃ approvers threshold, approvers ≠ [] ∧
      result.graphDefinition = approvalGraph approvers threshold := by
  unfold compile at h
  cases happrovers : requiredApprovers config with
  | error e =>
    rw [happrovers] at h
    cases h
  | ok approvers =>
    rw [happrovers] at h
    cases hthreshold : nodeThreshold config.threshold with
    | none =>
      rw [hthreshold] at h
      cases h
    | some threshold =>
      rw [hthreshold] at h
      obtain rfl := Except.ok.inj h
      refine ⟨approvers, threshold, ?_, rfl⟩
      unfold requiredApprovers at happrovers
      split at happrovers
      · cases happrovers
      · cases happrovers
      · cases happrovers
      · rename_i items hitems _
        cases items with
        | nil => exact absurd rfl hitems
        | cons item items => exact parseApprovers_ne_nil happrovers
      · cases happrovers

/-! ## The law -/

structure Asks (chainId : Nat) (threshold : ChainThreshold) (approver : Approver)
    (row : ApprovalRow) : Prop where
  pending : row.status = .pending
  chain : row.approvalChainId = some chainId
  threshold : row.chainThreshold = threshold
  person : row.approverPersonId = if approver.type = .person then some approver.id else none
  team : row.approverTeamId = if approver.type = .team then some approver.id else none

/-- What the engine meets does not fail: the approvers are found, the entity is one that can be
asked about, none of the persons is asked about it already or twice, and the writes land. -/
structure Undisturbed (env : ApprovalEnv) (answers : Nat → NodeAnswer)
    (approvals : Table ApprovalRow) (approvers : List RequiredApprover) (found : List Approver) :
    Prop where
  entity : ∃ kind entityId target, env.entity = .ok (kind, entityId) ∧
    projectLegacyEntityType kind = some target ∧
    ∀ r ∈ approvals.rows, r.status = .pending → r.targetEntityId = entityId →
      ∀ approver ∈ found, approver.type = .person → r.approverPersonId ≠ some approver.id
  names : List.Forall₂ (fun a approver => resolveApprover env a.type a.id = .ok approver)
    approvers found
  once : (found.filter fun approver => approver.type = .person).Nodup
  fresh : ∀ i, approvals.get? (env.approvalId i) = none
  drawn : ∀ i j, env.approvalId i = env.approvalId j → i = j
  answered : ∀ i, env.insertFails i = false
  landed : ∀ i, (answers i).positionLost = false ∧ (answers i).statusLost = false

def StartAsks (g : Graph) (approvers : List RequiredApprover) (threshold : ChainThreshold) : Prop :=
  ∀ env answers approvals found instanceId moves,
    Undisturbed env answers approvals approvers found →
      ∃ s approvals' rows chainId,
        callAsking g env (moves + 1) answers approvals none (.start instanceId) =
            some (.returned s, approvals') ∧
          approvals'.rows = approvals.rows ++ rows ∧
          List.Forall₂ (Asks chainId threshold) found rows ∧
          s.instance'.status = .waiting ∧ s.instance'.waitingFor = some "approval" ∧
          (g.node? s.instance'.currentNodeId).any (fun n => n.type == .approval) = true

def WaitsForApproval (g : Graph) (i : InstanceRow) : Prop :=
  i.status = .waiting ∧ (g.node? i.currentNodeId).any (fun n => n.type == .approval) = true

def EndsWith (g : Graph) (i : InstanceRow) (edgeCondition : Option String) (outcome : String) :
    Prop :=
  ∀ answers : Nat → NodeAnswer,
    (∀ j, (answers j).positionLost = false ∧ (answers j).statusLost = false) →
    ∀ moves, ∃ s, callEngine g (moves + 1) answers (some i) (.resume edgeCondition) =
        some (.returned s) ∧
      s.instance'.status = .completed ∧
      (g.node? s.instance'.currentNodeId).any (fun n =>
        n.type == .end' && asString (n.config.get "outcome") == some outcome) = true

/-- The graph says of the approval what the configuration says. -/
structure RunsFaithfully (g : Graph) (approvers : List RequiredApprover)
    (threshold : ChainThreshold) : Prop where
  asks : StartAsks g approvers threshold
  approved : ∀ i, WaitsForApproval g i → EndsWith g i (some "approved") "approved"
  rejected : ∀ i, WaitsForApproval g i → EndsWith g i (some "rejected") "rejected"
  otherwise : ∀ i, WaitsForApproval g i → ∀ edgeCondition outcome,
    EndsWith g i edgeCondition outcome → edgeCondition = some outcome

/-- Compiling the configuration preserves its meaning. -/
def CompilesFaithfully (approvers : List RequiredApprover) (threshold : Option ChainThreshold)
    (ruleName : String) : Prop :=
  ∃ result, compile (encode approvers threshold) ruleName = .ok result ∧
    isAccepted result.graphDefinition = true ∧
    RunsFaithfully result.graphDefinition approvers (threshold.getD .all)

/-! ## What the graph does -/

section

variable (approvers : List RequiredApprover) (threshold : ChainThreshold)

def missingApprover : ValidationError where
  code := .approvalApprover
  message := "Approval requires an approver"
  nodeId := some "approval_main"

theorem validate_compiled : validate (approvalGraph approvers threshold) = [missingApprover] := by
  rfl

theorem trigger_compiled : trigger? (approvalGraph approvers threshold) =
    some { id := "trigger", type := .trigger } := by
  rfl

def endNode (id outcome : String) : Node where
  id := id
  type := .end'
  config := [("outcome", .scalar (.str outcome))]

def approvedEdge : Edge where
  from' := "approval_main"
  to' := "end_success"
  condition := some "approved"

def rejectedEdge : Edge where
  from' := "approval_main"
  to' := "end_failure"
  condition := some "rejected"

theorem out_compiled :
    (approvalGraph approvers threshold).out "approval_main" = [approvedEdge, rejectedEdge] := by
  rfl

theorem enterNext_compiled (edgeCondition : Option String) :
    enterNext (approvalGraph approvers threshold) "approval_main" edgeCondition =
      if edgeCondition = some "rejected" then
        some (rejectedEdge, endNode "end_failure" "rejected")
      else some (approvedEdge, endNode "end_success" "approved") := by
  cases edgeCondition with
  | none => rfl
  | some c =>
    by_cases hempty : c = ""
    · subst hempty
      rfl
    by_cases hrejected : c = "rejected"
    · subst hrejected
      rfl
    by_cases happroved : c = "approved"
    · subst happroved
      rfl
    -- no edge carries the condition, so that the first one is followed
    have hnone : [approvedEdge, rejectedEdge].find? (fun e => e.condition == some c) = none := by
      simp [approvedEdge, rejectedEdge, Ne.symm happroved, Ne.symm hrejected]
    unfold enterNext selectEdge
    rw [out_compiled]
    simp only [hempty, if_false, hnone, Option.getD_none, Option.some.injEq, hrejected]
    rfl

theorem approvalNode_compiled {id : String}
    (h : ((approvalGraph approvers threshold).node? id).any (fun n => n.type == .approval) = true) :
    id = "approval_main" := by
  obtain ⟨n, hn, htype⟩ := (Option.any_eq_true _ _).mp h
  have hid : n.id = id := by simpa using List.find?_some hn
  have hmem : n ∈ (approvalGraph approvers threshold).nodes := List.mem_of_find?_eq_some hn
  simp only [approvalGraph, List.mem_cons, List.not_mem_nil, or_false] at hmem
  rcases hmem with rfl | rfl | rfl | rfl
  · cases htype
  · exact hid.symm
  · cases htype
  · cases htype

theorem endsWith_of_enterNext {g : Graph} {i : InstanceRow} {edgeCondition : Option String}
    {e : Edge} {id outcome : String} (hwaiting : i.status = .waiting)
    (hnext : enterNext g i.currentNodeId edgeCondition = some (e, endNode id outcome))
    (hnode : g.node? id = some (endNode id outcome)) : EndsWith g i edgeCondition outcome := by
  intro answers hlanded moves
  obtain ⟨hposition, hstatus⟩ := hlanded 0
  have hend : executeNode (endNode id outcome) (answers 0) = .write .completed none := rfl
  simp only [callEngine, callFrom, hwaiting, if_true, Option.map_some, advance, hnext, hend]
  refine ⟨_, rfl, ?_, ?_⟩
  · simp [RunState.write, hstatus]
  · simp only [RunState.write, RunState.follow, hstatus, hposition, Bool.false_eq_true, if_false]
    rw [show (endNode id outcome).id = id from rfl, hnode]
    simp [endNode, Config.get, asString]

theorem resume_compiled {i : InstanceRow}
    (hwaits : WaitsForApproval (approvalGraph approvers threshold) i)
    (edgeCondition : Option String) :
    EndsWith (approvalGraph approvers threshold) i edgeCondition
      (if edgeCondition = some "rejected" then "rejected" else "approved") := by
  have hnext := enterNext_compiled approvers threshold edgeCondition
  rw [← approvalNode_compiled approvers threshold hwaits.2] at hnext
  by_cases hrejected : edgeCondition = some "rejected"
  · rw [if_pos hrejected] at hnext ⊢
    exact endsWith_of_enterNext hwaits.1 hnext rfl
  · rw [if_neg hrejected] at hnext ⊢
    exact endsWith_of_enterNext hwaits.1 hnext rfl

end

/-! ## The rows of the graph -/

section

variable {env : ApprovalEnv} {answers : Nat → NodeAnswer} {approvals : Table ApprovalRow}
  {approvers : List RequiredApprover} {found : List Approver}

theorem zipIdx_map_id (row : ApprovalRow) (i : Nat) : (askRows env row i found).map ApprovalRow.id =
    (List.range' i found.length).map env.approvalId := by
  rw [askRows, List.map_map, ← List.zipIdx_map_snd i found, List.map_map]
  rfl

theorem exists_askRows (row : ApprovalRow) (h : Undisturbed env answers approvals approvers found)
    (hfree : ∀ r ∈ approvals.rows, r.status = .pending → r.targetEntityId = row.targetEntityId →
      ∀ approver ∈ found, approver.type = .person → r.approverPersonId ≠ some approver.id) :
    ∃ approvals', insertApprovers approvals (askRows env row 0 found) = .ok approvals' := by
  refine exists_insertApprovers ?_ ?_ ?_ ?_
  · rw [zipIdx_map_id]
    exact (List.nodup_range').map fun i j => h.drawn i j
  · intro r hr
    obtain ⟨p, _, rfl⟩ := List.mem_map.mp hr
    exact h.fresh p.2
  · intro r hr
    obtain ⟨p, hp, rfl⟩ := List.mem_map.mp hr
    have hmem : p.1 ∈ found := List.fst_mem_of_mem_zipIdx hp
    by_cases htype : p.1.type = .person
    · rw [alreadyAsked, Bool.and_eq_false_iff]
      right
      rw [List.any_eq_false]
      intro r hr hagain
      simp only [askRow, htype, if_true, Bool.and_eq_true, beq_iff_eq] at hagain
      exact hfree r hr hagain.1.1 hagain.1.2 p.1 hmem htype hagain.2
    · simp [alreadyAsked, askRow, htype]
  · -- two rows for one person come from two entries for that person
    rw [askRows, List.pairwise_map]
    have honce := h.once
    rw [List.Nodup, List.pairwise_filter, ← List.zipIdx_map_fst 0 found, List.pairwise_map] at honce
    refine honce.imp fun {p q} hne hsome => ?_
    have hq : q.1.type = .person := by
      by_contra htype
      simp [askRow, htype] at hsome
    rw [Bool.eq_false_iff]
    intro hagain
    simp only [asksAgain, askRow, hq, if_true, Bool.and_eq_true, beq_iff_eq] at hagain
    have hp : p.1.type = .person := by
      by_contra htype
      simp [htype] at hagain
    rw [hp, if_pos rfl, Option.some.injEq] at hagain
    refine hne (by simpa using hp) (by simpa using hq) ?_
    obtain ⟨⟨type, id⟩, _⟩ := p
    obtain ⟨⟨type', id'⟩, _⟩ := q
    simp_all

theorem asks_askRows {chainId : Nat} {threshold : ChainThreshold} (row : ApprovalRow)
    (hpending : row.status = .pending) (hchain : row.approvalChainId = some chainId)
    (hthreshold : row.chainThreshold = threshold) (i : Nat) :
    List.Forall₂ (Asks chainId threshold) found (askRows env row i found) := by
  induction found generalizing i with
  | nil => exact .nil
  | cons approver found ih =>
    exact .cons ⟨hpending, hchain, hthreshold, rfl, rfl⟩ (ih (i + 1))

theorem names_items (hids : ∀ a ∈ approvers, a.id ≠ "")
    (h : List.Forall₂ (fun a approver => resolveApprover env a.type a.id = .ok approver)
      approvers found) :
    List.Forall₂ (Names env) (approvers.map RequiredApprover.item) found := by
  induction h with
  | nil => exact .nil
  | cons hfirst _ ih =>
    obtain ⟨hid, hids⟩ := List.forall_mem_cons.mp hids
    exact .cons ⟨_, _, rfl, hid, hfirst⟩ (ih hids)

theorem executeApproval_compiled (hsome : approvers ≠ []) (hids : ∀ a ∈ approvers, a.id ≠ "")
    (h : Undisturbed env answers approvals approvers found) (threshold : ChainThreshold)
    (instanceId : Nat) :
    ∃ approvals' rows,
      executeApproval env instanceId (approvalMain approvers threshold) approvals =
          (approvals', none) ∧
        approvals'.rows = approvals.rows ++ rows ∧
        List.Forall₂ (Asks env.chainId threshold) found rows := by
  obtain ⟨kind, entityId, target, hentity, htarget, hfree⟩ := h.entity
  let row := workflowApprovalRow env (target, entityId) instanceId "approval_main" threshold
  obtain ⟨approvals', hinserted⟩ := exists_askRows row h hfree
  refine ⟨approvals', askRows env row 0 found, ?_, insertApprovers_rows hinserted,
    asks_askRows row rfl rfl rfl 0⟩
  have hloop := askApprovers_of_insertApprovers (names_items hids h.names) h.answered hinserted
  obtain ⟨a, rest, rfl⟩ := List.exists_cons_of_ne_nil hsome
  have hthreshold : nodeThreshold ((approvalMain (a :: rest) threshold).config.get "threshold") =
      some threshold := nodeThreshold_text threshold
  unfold executeApproval
  rw [show (approvalMain (a :: rest) threshold).config.get "required_approvers" =
    some (.items (a.item :: rest.map RequiredApprover.item)) from rfl]
  simp only [hentity, htarget, hthreshold, Option.bind_some, Option.map_some]
  exact hloop

theorem approversThrow_compiled (threshold : ChainThreshold) :
    approversThrow ((approvalMain approvers threshold).config.get "required_approvers") = false := by
  show (approvers.map RequiredApprover.item).any (fun x => x == .scalar .null) = false
  rw [List.any_map, List.any_eq_false]
  intro a _ hnull
  cases eq_of_beq hnull

theorem start_compiled (hsome : approvers ≠ []) (hids : ∀ a ∈ approvers, a.id ≠ "")
    (threshold : ChainThreshold) :
    StartAsks (approvalGraph approvers threshold) approvers threshold := by
  intro env answers approvals found instanceId moves h
  obtain ⟨approvals', rows, hexecuted, hrows, hasks⟩ :=
    executeApproval_compiled hsome hids h threshold instanceId
  obtain ⟨hposition, hstatus⟩ := h.landed 0
  have hnext : enterNext (approvalGraph approvers threshold) "trigger" none =
      some ({ from' := "trigger", to' := "approval_main" }, approvalMain approvers threshold) := rfl
  have hentered : enterNode env instanceId (approvalMain approvers threshold) (answers 0) approvals =
      (approvals', { answers 0 with error := fun _ => none }) := by
    rw [enterNode, if_pos (show (approvalMain approvers threshold).type = .approval from rfl),
      hexecuted]
  have hwaits : executeNode (approvalMain approvers threshold)
      { answers 0 with error := fun _ => none } = .write .waiting (some "approval") := by
    show orThrow (Option.or none _) _ = _
    rw [approversThrow_compiled]
    rfl
  let s : RunState :=
    ⟨{ id := instanceId, status := .active, currentNodeId := "trigger" }, []⟩
  let met : NodeAnswer := { answers 0 with error := fun _ => none }
  let entered := s.follow "trigger" none { from' := "trigger", to' := "approval_main" }
    (approvalMain approvers threshold) met
  refine ⟨entered.write .waiting (some "approval") met, approvals', rows, env.chainId, ?_, hrows,
    hasks, ?_⟩
  · simp only [callAsking, callFrom, trigger_compiled, Option.map_some, advanceAsking, hnext,
      hentered, hwaits]
    rfl
  · simp only [entered, met, RunState.write, RunState.follow, hstatus, hposition,
      Bool.false_eq_true, if_false]
    exact ⟨trivial, trivial, rfl⟩

end

/-! ## The law fails -/

/-- The validator refuses the graph of every configuration, and does so for the one reason that it
looks for the approver of a node outside the list. What the graph does when it is run is right for
the two decisions; a resumption with anything else ends in success. -/
theorem compile_neverFaithful (approvers : List RequiredApprover)
    (threshold : Option ChainThreshold) (ruleName : String) :
    ¬CompilesFaithfully approvers threshold ruleName ∧
      (approvers ≠ [] → (∀ a ∈ approvers, a.id ≠ "") →
        ∃ result, compile (encode approvers threshold) ruleName = .ok result ∧
          validate result.graphDefinition = [missingApprover] ∧
          StartAsks result.graphDefinition approvers (threshold.getD .all) ∧
          ∀ i, WaitsForApproval result.graphDefinition i → ∀ edgeCondition,
            EndsWith result.graphDefinition i edgeCondition
              (if edgeCondition = some "rejected" then "rejected" else "approved")) := by
  constructor
  · rintro ⟨result, hcompile, haccepted, _⟩
    obtain ⟨approvers', threshold', _, hgraph⟩ := compile_eq_ok hcompile
    rw [isAccepted, hgraph, validate_compiled] at haccepted
    cases haccepted
  · intro hsome hids
    refine ⟨_, compile_encode hsome hids ruleName, validate_compiled _ _,
      start_compiled hsome hids _, ?_⟩
    intro i hwaits edgeCondition
    exact resume_compiled approvers _ hwaits edgeCondition

/-- One manager has to approve. -/
theorem manager_notFaithful :
    ¬CompilesFaithfully [{ type := .person, id := "manager" }] none "Board room" := by
  rintro ⟨result, hcompile, haccepted, _⟩
  rw [compile_encode (by decide) (by decide)] at hcompile
  obtain rfl := Except.ok.inj hcompile
  exact absurd haccepted (by decide)

end Prequest.Workflow
