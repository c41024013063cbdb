import Prequest.Approval.Row
import Prequest.Orders.ServiceRule

/-!
# Approval routing

The outcomes of the lines of a booking become approval rows. Each approver target
is resolved to people; the rows are grouped by person, and the row of a person
lists the entities of all the lines that person was asked about.

* `approverPersonId_assemblePlan`: every row is asked of a person.
-/

namespace Prequest.Orders

open Prequest.Approval

/-- `planUuid(idempotencyKey, rowKind, stableIndex)`. -/
inductive PlanUuid where
  | booking (idempotencyKey : String)
  | slot (idempotencyKey : String) (displayOrder : Nat)
  | order (idempotencyKey serviceType : String)
  | oli (idempotencyKey : String) (orderId : PlanUuid) (clientLineId : String)
  | assetReservation (idempotencyKey : String) (orderId : PlanUuid) (clientLineId : String)
  | approval (idempotencyKey : String) (approverPersonId : Nat)
  | approvalChain (idempotencyKey : String)
  deriving DecidableEq, Repr

/-- The entities an outcome touched. -/
structure ApprovalScope where
  reservationIds : List Nat := []
  orderIds : List PlanUuid := []
  orderLineItemIds : List PlanUuid := []
  ticketIds : List Nat := []
  assetReservationIds : List PlanUuid := []
  deriving DecidableEq, Repr

/-- The `scope_breakdown` of a planned row. -/
structure PlanScopeBreakdown extends ApprovalScope where
  reasons : List ScopeReason := []
  deriving DecidableEq, Repr

structure AttachPlanApproval where
  id : PlanUuid
  targetEntityId : Nat
  approverPersonId : Option Nat
  approverTeamId : Option Nat := none
  approvalChainId : Option PlanUuid := none
  parallelGroup : Option String := none
  chainThreshold : ChainThreshold := .all
  scopeBreakdown : PlanScopeBreakdown
  deriving DecidableEq, Repr

/-- What approver targets are resolved against. -/
structure ApproverDirectory where
  /-- The persons of the users with an active assignment of the role, those without a person left
  out. -/
  personsOfRole : Nat → List Nat
  /-- `cost_centers.default_approver_person_id`. -/
  defaultApprover : Nat → Option Nat

section

variable (dir : ApproverDirectory) (costCenterId : Option Nat)

/-- The persons a target stands for. Other derived expressions than the cost centre's default
approver resolve to nobody, with a warning. -/
def resolveApproverTarget : ApproverTarget → List Nat
  | .person personId => [personId]
  | .role roleId => dir.personsOfRole roleId
  | .derived expr =>
      if expr = "cost_center.default_approver" then
        (costCenterId.bind dir.defaultApprover).toList
      else []

structure LineOutcome where
  outcome : ServiceRuleOutcome
  scope : ApprovalScope
  deriving DecidableEq, Repr

structure ApproverTuple where
  approverPersonId : Nat
  ruleId : Nat
  denialMessage : Option String
  scope : ApprovalScope
  deriving DecidableEq, Repr

def messageOfRule (outcome : ServiceRuleOutcome) (ruleId : Nat) : Option String :=
  if outcome.matchedRuleIds.contains ruleId then outcome.denialMessages.head? else none

def collectApproverTuples (perLineOutcomes : List LineOutcome) : List ApproverTuple :=
  perLineOutcomes.flatMap fun item =>
    item.outcome.approverTargets.flatMap fun target =>
      (resolveApproverTarget dir costCenterId target.2).map fun personId =>
        { approverPersonId := personId
          ruleId := target.1
          denialMessage := messageOfRule item.outcome target.1
          scope := item.scope }

end

/-! ## Rows -/

/-- One key of `mergeScopeInto`. -/
def mergeIds {α : Type} [DecidableEq α] (existing incoming : List α) : List α :=
  if incoming.isEmpty then existing else (existing ++ incoming).eraseDups

def mergeScopeInto (target addition : ApprovalScope) : ApprovalScope where
  reservationIds := mergeIds target.reservationIds addition.reservationIds
  orderIds := mergeIds target.orderIds addition.orderIds
  orderLineItemIds := mergeIds target.orderLineItemIds addition.orderLineItemIds
  ticketIds := mergeIds target.ticketIds addition.ticketIds
  assetReservationIds := mergeIds target.assetReservationIds addition.assetReservationIds

/-- The entry of a person after one more tuple; a rule is a reason once. -/
def addTuple (entry : PlanScopeBreakdown) (t : ApproverTuple) : PlanScopeBreakdown where
  toApprovalScope := mergeScopeInto entry.toApprovalScope t.scope
  reasons :=
    if entry.reasons.any fun r => r.ruleId == t.ruleId then entry.reasons
    else entry.reasons ++ [{ ruleId := t.ruleId, denialMessage := t.denialMessage }]

/-- `(rule_id, denial_message)` in order. -/
def beforeReason (a b : ScopeReason) : Prop :=
  a.ruleId < b.ruleId ∨
    a.ruleId = b.ruleId ∧ a.denialMessage.getD "" ≤ b.denialMessage.getD ""

instance (a b : ScopeReason) : Decidable (beforeReason a b) := by
  unfold beforeReason
  infer_instance

def entryOf (tuples : List ApproverTuple) (personId : Nat) : PlanScopeBreakdown :=
  let entry := (tuples.filter fun t => t.approverPersonId == personId).foldl addTuple {}
  { entry with reasons := entry.reasons.insertionSort beforeReason }

def approvalRowOf (idempotencyKey : String) (bookingId : Nat) (tuples : List ApproverTuple)
    (personId : Nat) : AttachPlanApproval where
  id := .approval idempotencyKey personId
  targetEntityId := bookingId
  approverPersonId := some personId
  approvalChainId := some (.approvalChain idempotencyKey)
  parallelGroup := some ("parallel-" ++ toString bookingId)
  chainThreshold := .all
  scopeBreakdown := entryOf tuples personId

/-- `assemblePlan`: one row for each person who is asked, in the order of the persons. -/
def assemblePlan (dir : ApproverDirectory) (costCenterId : Option Nat) (idempotencyKey : String)
    (bookingId : Nat) (perLineOutcomes : List LineOutcome) : List AttachPlanApproval :=
  let tuples := collectApproverTuples dir costCenterId perLineOutcomes
  let persons := (tuples.map ApproverTuple.approverPersonId).eraseDups
  (persons.insertionSort (· ≤ ·)).map (approvalRowOf idempotencyKey bookingId tuples)

/-! ## What the rows cover -/

theorem mem_mergeIds {α : Type} [DecidableEq α] {existing incoming : List α} {x : α} :
    x ∈ mergeIds existing incoming ↔ x ∈ existing ∨ x ∈ incoming := by
  unfold mergeIds
  split
  · rename_i hempty
    rw [List.isEmpty_iff.mp hempty]
    simp
  · rw [List.mem_eraseDups, List.mem_append]

theorem mem_foldl_addTuple {tuples : List ApproverTuple} {entry : PlanScopeBreakdown}
    {oliId : PlanUuid} :
    oliId ∈ (tuples.foldl addTuple entry).orderLineItemIds ↔
      oliId ∈ entry.orderLineItemIds ∨ ∃ t ∈ tuples, oliId ∈ t.scope.orderLineItemIds := by
  induction tuples generalizing entry with
  | nil => simp
  | cons t tuples ih =>
    rw [List.foldl_cons, ih, List.exists_mem_cons_iff, ← or_assoc]
    simp only [addTuple, mergeScopeInto, mem_mergeIds]

theorem mem_collectApproverTuples {dir : ApproverDirectory} {costCenterId : Option Nat}
    {perLineOutcomes : List LineOutcome} {t : ApproverTuple} :
    t ∈ collectApproverTuples dir costCenterId perLineOutcomes ↔
      ∃ item ∈ perLineOutcomes, ∃ target ∈ item.outcome.approverTargets,
        ∃ personId ∈ resolveApproverTarget dir costCenterId target.2,
          t = { approverPersonId := personId, ruleId := target.1,
                denialMessage := messageOfRule item.outcome target.1, scope := item.scope } := by
  simp only [collectApproverTuples, List.mem_flatMap, List.mem_map, eq_comm]

section

variable {dir : ApproverDirectory} {costCenterId : Option Nat} {idempotencyKey : String}
  {bookingId : Nat} {perLineOutcomes : List LineOutcome} {row : AttachPlanApproval}

/-- Somebody can be asked about the outcome. -/
def LineOutcome.HasApprover (dir : ApproverDirectory) (costCenterId : Option Nat)
    (item : LineOutcome) : Prop :=
  ∃ target ∈ item.outcome.approverTargets, resolveApproverTarget dir costCenterId target.2 ≠ []

theorem mem_orderLineItemIds_assemblePlan {oliId : PlanUuid} :
    (∃ row ∈ assemblePlan dir costCenterId idempotencyKey bookingId perLineOutcomes,
        oliId ∈ row.scopeBreakdown.orderLineItemIds) ↔
      ∃ item ∈ perLineOutcomes, oliId ∈ item.scope.orderLineItemIds ∧
        item.HasApprover dir costCenterId := by
  constructor
  · intro h
    obtain ⟨row, hrow, hcovers⟩ := h
    obtain ⟨personId, _, rfl⟩ := List.mem_map.mp hrow
    simp only [approvalRowOf, entryOf] at hcovers
    obtain ⟨t, ht, hscope⟩ := (mem_foldl_addTuple.mp hcovers).resolve_left List.not_mem_nil
    obtain ⟨item, hitem, target, htarget, person, hperson, rfl⟩ :=
      mem_collectApproverTuples.mp (List.mem_filter.mp ht).1
    exact ⟨item, hitem, hscope, target, htarget, List.ne_nil_of_mem hperson⟩
  · intro h
    obtain ⟨item, hitem, hscope, target, htarget, hne⟩ := h
    obtain ⟨person, hperson⟩ := List.exists_mem_of_ne_nil _ hne
    have ht := mem_collectApproverTuples.mpr ⟨item, hitem, target, htarget, person, hperson, rfl⟩
    have hasked : person ∈ ((collectApproverTuples dir costCenterId perLineOutcomes).map
        ApproverTuple.approverPersonId).eraseDups.insertionSort (· ≤ ·) := by
      rw [List.mem_insertionSort, List.mem_eraseDups]
      exact List.mem_map.mpr ⟨_, ht, rfl⟩
    refine ⟨_, List.mem_map_of_mem hasked, ?_⟩
    refine mem_foldl_addTuple.mpr (.inr ⟨_, List.mem_filter.mpr ⟨ht, ?_⟩, hscope⟩)
    simp

theorem exists_outcome_of_mem_assemblePlan
    (h : row ∈ assemblePlan dir costCenterId idempotencyKey bookingId perLineOutcomes) :
    ∃ item ∈ perLineOutcomes, item.HasApprover dir costCenterId ∧
      ∀ oliId ∈ item.scope.orderLineItemIds, oliId ∈ row.scopeBreakdown.orderLineItemIds := by
  obtain ⟨personId, hperson, rfl⟩ := List.mem_map.mp h
  rw [List.mem_insertionSort, List.mem_eraseDups] at hperson
  obtain ⟨t, ht, hasked⟩ := List.mem_map.mp hperson
  obtain ⟨item, hitem, target, htarget, person, hresolved, rfl⟩ := mem_collectApproverTuples.mp ht
  refine ⟨item, hitem, ⟨target, htarget, List.ne_nil_of_mem hresolved⟩, ?_⟩
  intro oliId holi
  refine mem_foldl_addTuple.mpr (.inr ⟨_, List.mem_filter.mpr ⟨ht, ?_⟩, holi⟩)
  simpa using hasked

theorem approverPersonId_assemblePlan
    (h : row ∈ assemblePlan dir costCenterId idempotencyKey bookingId perLineOutcomes) :
    row.approverPersonId.isSome = true := by
  obtain ⟨personId, _, rfl⟩ := List.mem_map.mp h
  rfl

end

end Prequest.Orders
