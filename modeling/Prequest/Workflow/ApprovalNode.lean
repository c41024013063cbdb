import Prequest.Booking.EditBooking
import Prequest.Workflow.Engine

/-!
# The approval node

A node of type `approval` asks its approvers and waits. A compiled graph lists
them under `required_approvers`: the engine writes one row for each, all of one
chain. A node without the list names one person or team, who is asked about the
ticket in a row without a chain. The rows are separate inserts, so that the rows
before one that fails stay.

* `insertApprovers_of_askApprovers`, `askApprovers_of_insertApprovers`: the inserts one by one leave
  the rows of one insert of all.
-/

namespace Prequest.Workflow

open Prequest.Lib Prequest.Approval
open Prequest.Booking (Approver alreadyAsked insertApprovers)

/-! ## One row -/

inductive WorkflowEntityKind where
  | case'
  | workOrder
  | booking
  deriving DecidableEq, Repr

/-- `projectLegacyEntityType`; the check on the column does not know `work_order`. -/
def projectLegacyEntityType : WorkflowEntityKind → Option TargetEntityType
  | .case' => some .ticket
  | .booking => some .booking
  | .workOrder => none

/-- What the executor of an approval node meets. -/
structure ApprovalEnv where
  /-- `getEntityKindForInstance`. -/
  entity : Except String (WorkflowEntityKind × Nat)
  /-- The id that is passed along as `ticketId`. -/
  ticketId : Nat
  /-- `assertTenantOwned` for a person, and the row it finds. -/
  person : String → Except String Nat
  /-- `assertTenantOwned` for a team. -/
  team : String → Except String Nat
  /-- `randomUUID()`. -/
  chainId : Nat
  approvalId : Nat → Nat
  /-- `now()` of each insert. -/
  now : Nat → Nat
  /-- The insert of a row fails for a reason outside the table. -/
  insertFails : Nat → Bool := fun _ => false

def advanceFailed : String := "workflow.advance_failed"

/-- The two columns of an approver, before they are looked at. -/
structure ApproverFields where
  approverPersonId : Option Value
  approverTeamId : Option Value

/-- `null` and what is absent may be written; what is falsy otherwise is no uuid. -/
def isWritable (v : Option Value) : Bool :=
  v == none || v == some (.scalar .null) || truthy v

/-- The id of an approver that is set. -/
def ownedId (owned : String → Except String Nat) (v : Option Value) : Except String (Option Nat) :=
  if truthy v then
    match asString v with
    | some id => (owned id).map some
    | none => .error "reference.invalid_uuid"
  else .ok none

def approverFields : Item → Except String ApproverFields
  | .scalar .null => .error "TypeError"
  | .scalar _ => .ok ⟨none, none⟩
  | .fields fs =>
      let id := (fs.lookup "id").map Value.scalar
      .ok
        { approverPersonId := if fs.lookup "type" = some (.str "person") then id else none
          approverTeamId := if fs.lookup "type" = some (.str "team") then id else none }

/-- One insert. The row is missing when one of its other columns fails its check. -/
def askApprover (env : ApprovalEnv) (row : Option ApprovalRow) (i : Nat)
    (approvals : Table ApprovalRow) (fields : ApproverFields) : Except String (Table ApprovalRow) :=
  match ownedId env.person fields.approverPersonId with
  | .error e => .error e
  | .ok person =>
      match ownedId env.team fields.approverTeamId, row with
      | .error e, _ => .error e
      | .ok _, none => .error advanceFailed
      | .ok team, some row =>
          let row := { row with
            id := env.approvalId i
            approverPersonId := person
            approverTeamId := team
            createdAt := env.now i }
          if env.insertFails i || !isWritable fields.approverPersonId ||
              !isWritable fields.approverTeamId || alreadyAsked approvals row then
            .error advanceFailed
          else
            match approvals.insert? row with
            | none => .error advanceFailed
            | some approvals => .ok approvals

/-! ## One node -/

/-- `threshold ?? 'all'`, when the check on the column knows it. -/
def nodeThreshold (v : Option Value) : Option ChainThreshold :=
  if v = none ∨ v = some (.scalar .null) then some .all
  else if asString v = some "all" then some .all
  else if asString v = some "any" then some .any
  else none

/-- The `parallel_group` of a chain that needs all its approvers. -/
def workflowGroup (nodeId : String) (instanceId : Nat) : String :=
  "wf-" ++ nodeId ++ "-" ++ toString instanceId

/-- A row of the chain of a node; its id, its approver and its time are filled in later. -/
def workflowApprovalRow (env : ApprovalEnv) (target : TargetEntityType × Nat) (instanceId : Nat)
    (nodeId : String) (threshold : ChainThreshold) : ApprovalRow where
  id := 0
  targetEntityType := target.1
  targetEntityId := target.2
  approvalChainId := some env.chainId
  parallelGroup := if threshold = .all then some (workflowGroup nodeId instanceId) else none
  chainThreshold := threshold
  workflowInstanceId := some instanceId
  workflowNodeId := some nodeId
  status := .pending

def legacyApprovalRow (env : ApprovalEnv) : ApprovalRow where
  id := 0
  targetEntityType := .ticket
  targetEntityId := env.ticketId
  status := .pending

/-- The loop over `required_approvers`, from the `i`-th entry on. -/
def askApprovers (env : ApprovalEnv) (row : Option ApprovalRow) :
    Nat → List Item → Table ApprovalRow → Table ApprovalRow × Option String
  | _, [], approvals => (approvals, none)
  | i, item :: items, approvals =>
      match (approverFields item).bind (askApprover env row i approvals) with
      | .error e => (approvals, some e)
      | .ok approvals => askApprovers env row (i + 1) items approvals

def executeApproval (env : ApprovalEnv) (instanceId : Nat) (node : Node)
    (approvals : Table ApprovalRow) : Table ApprovalRow × Option String :=
  match node.config.get "required_approvers" with
  | some (.items (item :: items)) =>
      match env.entity with
      | .error e => (approvals, some e)
      | .ok (kind, entityId) =>
          let row := (projectLegacyEntityType kind).bind fun target =>
            (nodeThreshold (node.config.get "threshold")).map
              (workflowApprovalRow env (target, entityId) instanceId node.id)
          askApprovers env row 0 (item :: items) approvals
  | _ =>
      let fields : ApproverFields :=
        { approverPersonId := node.config.get "approver_person_id"
          approverTeamId := node.config.get "approver_team_id" }
      match askApprover env (some (legacyApprovalRow env)) 0 approvals fields with
      | .error e => (approvals, some e)
      | .ok approvals => (approvals, none)

/-! ## The chain of moves -/

/-- The rows of a node, and what its executor has met once they are inserted. -/
def enterNode (env : ApprovalEnv) (instanceId : Nat) (node : Node) (answer : NodeAnswer)
    (approvals : Table ApprovalRow) : Table ApprovalRow × NodeAnswer :=
  if node.type = .approval then
    let asked := executeApproval env instanceId node approvals
    (asked.1, { answer with error := fun _ => asked.2 })
  else (approvals, answer)

/-- `advance`, with the rows that an approval node inserts. -/
def advanceAsking (g : Graph) (env : ApprovalEnv) : Nat → (Nat → NodeAnswer) →
    Table ApprovalRow → RunState → String → Option String → RunResult × Table ApprovalRow
  | 0, _, approvals, s, _, _ => (.running s, approvals)
  | fuel + 1, answers, approvals, s, fromNodeId, edgeCondition =>
      match enterNext g fromNodeId edgeCondition with
      | none => (.returned s, approvals)
      | some (e, node) =>
          let entered := enterNode env s.instance'.id node (answers 0) approvals
          let s' := s.follow fromNodeId edgeCondition e node entered.2
          match executeNode node entered.2 with
          | .advance decision =>
              advanceAsking g env fuel (fun i => answers (i + 1)) entered.1 s' node.id decision
          | .write status waitingFor => (.returned (s'.write status waitingFor entered.2), entered.1)
          | .stay => (.returned s', entered.1)
          | .throws error => (.threw s' error, entered.1)

def callAsking (g : Graph) (env : ApprovalEnv) (fuel : Nat) (answers : Nat → NodeAnswer)
    (approvals : Table ApprovalRow) (instance' : Option InstanceRow) (call : Call) :
    Option (RunResult × Table ApprovalRow) :=
  (callFrom g instance' call).map fun p =>
    advanceAsking g env fuel answers approvals ⟨p.1, []⟩ p.2.1 p.2.2

/-! ## The rows of a listed node -/

/-- An entry of `required_approvers`, as the compiler writes it. -/
def approverItem (type : Booking.ApproverType) (id : String) : Item :=
  .fields
    [("type", .str (match type with | .person => "person" | .team => "team")), ("id", .str id)]

section

variable (env : ApprovalEnv)

def resolveApprover (type : Booking.ApproverType) (id : String) :
    Except String Approver :=
  match type with
  | .person => (env.person id).map fun n => ⟨.person, n⟩
  | .team => (env.team id).map fun n => ⟨.team, n⟩

/-- The row that the `i`-th insert writes for its approver. -/
def askRow (row : ApprovalRow) (approver : Approver) (i : Nat) : ApprovalRow :=
  { row with
    id := env.approvalId i
    approverPersonId := if approver.type = .person then some approver.id else none
    approverTeamId := if approver.type = .team then some approver.id else none
    createdAt := env.now i }

def askRows (row : ApprovalRow) (i : Nat) (approvers : List Approver) :
    List ApprovalRow :=
  (approvers.zipIdx i).map fun p => askRow env row p.1 p.2

end

section

variable {env : ApprovalEnv} {row : ApprovalRow} {i : Nat} {approvals : Table ApprovalRow}
  {approvals' : Table ApprovalRow} {approvers : List Approver} {rows : List ApprovalRow}

@[simp] theorem truthy_none : truthy none = false := rfl

theorem askApprover_listed {type : Booking.ApproverType} {id : String} {approver : Approver}
    (hid : id ≠ "") (hresolved : resolveApprover env type id = .ok approver) :
    (approverFields (approverItem type id)).bind (askApprover env (some row) i approvals) =
      if env.insertFails i || alreadyAsked approvals (askRow env row approver i) then
        .error advanceFailed
      else
        match approvals.insert? (askRow env row approver i) with
        | none => .error advanceFailed
        | some approvals => .ok approvals := by
  have htruthy : truthy (some (.scalar (.str id))) = true := by simp [truthy, hid]
  cases type with
  | person =>
    cases howned : env.person id with
    | error e => simp [resolveApprover, howned, Except.map] at hresolved
    | ok n =>
      obtain rfl : (⟨.person, n⟩ : Approver) = approver := by
        simpa [resolveApprover, howned, Except.map] using hresolved
      simp [approverItem, approverFields, Except.bind, askApprover, ownedId, htruthy, asString,
        howned, Except.map, isWritable, askRow, List.lookup_cons]
  | team =>
    cases howned : env.team id with
    | error e => simp [resolveApprover, howned, Except.map] at hresolved
    | ok n =>
      obtain rfl : (⟨.team, n⟩ : Approver) = approver := by
        simpa [resolveApprover, howned, Except.map] using hresolved
      simp [approverItem, approverFields, Except.bind, askApprover, ownedId, htruthy, asString,
        howned, Except.map, isWritable, askRow, List.lookup_cons]

def Names (env : ApprovalEnv) (item : Item) (approver : Approver) : Prop :=
  ∃ type id, item = approverItem type id ∧ id ≠ "" ∧ resolveApprover env type id = .ok approver

theorem insertApprovers_cons : insertApprovers approvals (row :: rows) =
      if alreadyAsked approvals row then .error .duplicateApproval
      else match approvals.insert? row with
        | none => .error .duplicateApproval
        | some approvals => insertApprovers approvals rows := by
  unfold insertApprovers
  rw [List.foldlM_cons]
  by_cases hasked : alreadyAsked approvals row = true
  · rw [if_pos hasked, if_pos hasked]
    rfl
  · rw [if_neg hasked, if_neg hasked]
    cases approvals.insert? row with
    | none => rfl
    | some approvals => rfl

def asksAgain (r row : ApprovalRow) : Bool :=
  r.status == .pending && r.targetEntityId == row.targetEntityId &&
    r.approverPersonId == row.approverPersonId

theorem exists_insertApprovers (hids : (rows.map ApprovalRow.id).Nodup)
    (hfresh : ∀ r ∈ rows, approvals.get? r.id = none)
    (hasked : ∀ r ∈ rows, alreadyAsked approvals r = false)
    (honce : rows.Pairwise fun r r' => r'.approverPersonId.isSome = true → asksAgain r r' = false) :
    ∃ approvals', insertApprovers approvals rows = .ok approvals' := by
  induction rows generalizing approvals with
  | nil => exact ⟨approvals, rfl⟩
  | cons row rows ih =>
    obtain ⟨hrow, hrest⟩ := List.forall_mem_cons.mp hfresh
    obtain ⟨hfree, hfrees⟩ := List.forall_mem_cons.mp hasked
    obtain ⟨hown, hids⟩ := List.nodup_cons.mp hids
    obtain ⟨honce, honces⟩ := List.pairwise_cons.mp honce
    obtain ⟨inserted, hinsert, hrows⟩ := Table.insert?_of_fresh hrow
    rw [insertApprovers_cons, hfree, if_neg Bool.false_ne_true, hinsert]
    refine ih hids ?_ ?_ honces
    · intro r hr
      rw [Table.get?_eq_none]
      intro s hs heq
      rw [hrows] at hs
      rcases List.mem_append.mp hs with hold | hnew
      · exact Table.get?_eq_none.mp (hrest r hr) s hold heq
      · obtain rfl := List.mem_singleton.mp hnew
        exact hown (List.mem_map.mpr ⟨r, hr, heq.symm⟩)
    · intro r hr
      have hbefore := hfrees r hr
      unfold alreadyAsked at hbefore ⊢
      rw [hrows, List.any_append]
      by_cases hperson : r.approverPersonId.isSome = true
      · have hnew : asksAgain row r = false := honce r hr hperson
        rw [hperson, Bool.true_and] at hbefore ⊢
        rw [hbefore, Bool.false_or, List.any_cons, List.any_nil, Bool.or_false]
        exact hnew
      · rw [Bool.not_eq_true] at hperson
        rw [hperson, Bool.false_and]

theorem insertApprovers_of_askApprovers {items : List Item}
    (hnames : List.Forall₂ (Names env) items approvers)
    (h : askApprovers env (some row) i items approvals = (approvals', none)) :
    insertApprovers approvals (askRows env row i approvers) = .ok approvals' := by
  induction hnames generalizing i approvals with
  | nil => exact congrArg Except.ok (Prod.mk.inj h).1
  | cons hname _ ih =>
    obtain ⟨type, id, rfl, hid, hresolved⟩ := hname
    rw [askApprovers, askApprover_listed hid hresolved] at h
    rw [askRows, List.zipIdx_cons, List.map_cons, insertApprovers_cons]
    split at h
    · cases (Prod.mk.inj h).2
    · rename_i hnext
      split at hnext
      · cases hnext
      · rename_i hfree
        simp only [Bool.or_eq_true, not_or] at hfree
        rw [if_neg hfree.2]
        cases hinsert : approvals.insert? (askRow env row _ i) with
        | none =>
          rw [hinsert] at hnext
          cases hnext
        | some inserted =>
          rw [hinsert] at hnext
          cases hnext
          exact ih h

theorem askApprovers_of_insertApprovers {items : List Item}
    (hnames : List.Forall₂ (Names env) items approvers)
    (hanswered : ∀ i, env.insertFails i = false)
    (h : insertApprovers approvals (askRows env row i approvers) = .ok approvals') :
    askApprovers env (some row) i items approvals = (approvals', none) := by
  induction hnames generalizing i approvals with
  | nil => exact Prod.ext (Except.ok.inj h) rfl
  | cons hname _ ih =>
    obtain ⟨type, id, rfl, hid, hresolved⟩ := hname
    rw [askRows, List.zipIdx_cons, List.map_cons, insertApprovers_cons] at h
    rw [askApprovers, askApprover_listed hid hresolved, hanswered, Bool.false_or]
    split at h
    · cases h
    · rename_i hfree
      rw [if_neg hfree]
      cases hinsert : approvals.insert? (askRow env row _ i) with
      | none =>
        rw [hinsert] at h
        cases h
      | some inserted =>
        rw [hinsert] at h
        exact ih h

end

end Prequest.Workflow
