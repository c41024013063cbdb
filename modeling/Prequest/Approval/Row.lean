import Prequest.Lib.Table

/-!
# Rows of the `approvals` table

One row is one person or team that was asked to approve one entity. Rows of one
entity belong together through `approvalChainId`, through `parallelGroup`, or
through both; the two columns are read together by `siblingOf`, the condition
under which `grant_ticket_approval` counts another row of the same ticket.

All tables of the development hold the rows of one tenant.
-/

namespace Prequest.Approval

open Prequest.Lib

/-- The values of the `status` column. -/
inductive ApprovalStatus where
  | pending
  | approved
  | rejected
  | delegated
  | expired
  deriving DecidableEq, Repr

/-- The values of the `target_entity_type` column. -/
inductive TargetEntityType where
  | booking
  | order
  | ticket
  | visitorInvite
  deriving DecidableEq, Repr

inductive Decision where
  | approved
  | rejected
  deriving DecidableEq, Repr

def Decision.toStatus : Decision → ApprovalStatus
  | .approved => .approved
  | .rejected => .rejected

@[simp] theorem Decision.toStatus_ne_pending (d : Decision) : d.toStatus ≠ .pending := by
  cases d <;> decide

@[simp] theorem Decision.toStatus_eq_approved (d : Decision) :
    d.toStatus = .approved ↔ d = .approved := by
  cases d <;> decide

/-- The `chain_threshold` column: how many rows of a chain have to approve. -/
inductive ChainThreshold where
  | all
  | any
  deriving DecidableEq, Repr

structure ScopeReason where
  ruleId : Nat
  denialMessage : Option String
  deriving DecidableEq, Repr

/-- The `scope_breakdown` column: the entities an approval was asked for. -/
structure ScopeBreakdown where
  reservationIds : List Nat := []
  orderIds : List Nat := []
  orderLineItemIds : List Nat := []
  ticketIds : List Nat := []
  assetReservationIds : List Nat := []
  reasons : List ScopeReason := []
  deriving DecidableEq, Repr

/-- A row of `approvals`. Columns that a writer may leave out carry the default of the table. -/
structure ApprovalRow where
  id : Nat
  targetEntityType : TargetEntityType
  targetEntityId : Nat
  approvalChainId : Option Nat := none
  parallelGroup : Option String := none
  approverPersonId : Option Nat := none
  approverTeamId : Option Nat := none
  status : ApprovalStatus := .pending
  chainThreshold : ChainThreshold := .all
  workflowInstanceId : Option Nat := none
  workflowNodeId : Option String := none
  scopeBreakdown : ScopeBreakdown := {}
  respondedAt : Option Nat := none
  comments : Option String := none
  createdAt : Nat := 0
  deriving DecidableEq, Repr

instance : Keyed ApprovalRow Nat where
  key := ApprovalRow.id

theorem get?_eq_some_iff {t : Table ApprovalRow} {id : Nat} {a : ApprovalRow} :
    t.get? id = some a ↔ a ∈ t.rows ∧ a.id = id :=
  Table.get?_eq_some

/-- A row still waits for an answer, its own or that of a delegate. -/
def ApprovalRow.nonTerminal (r : ApprovalRow) : Bool :=
  r.status == .pending || r.status == .delegated

/-- `r'` is the row `r` with another answer: only the columns of the answer differ. -/
def ApprovalRow.AnswerOf (r' r : ApprovalRow) : Prop :=
  r' = { r with
    status := r'.status
    respondedAt := r'.respondedAt
    comments := r'.comments }

theorem ApprovalRow.AnswerOf.refl (r : ApprovalRow) : r.AnswerOf r := rfl

theorem ApprovalRow.AnswerOf.trans {a b c : ApprovalRow} (h : a.AnswerOf b) (h' : b.AnswerOf c) :
    a.AnswerOf c := by
  unfold ApprovalRow.AnswerOf at h h' ⊢
  rw [h'] at h
  exact h

section

variable {r' r : ApprovalRow} (h : r'.AnswerOf r)

include h

theorem ApprovalRow.AnswerOf.id_eq : r'.id = r.id := by
  unfold ApprovalRow.AnswerOf at h
  rw [h]

theorem ApprovalRow.AnswerOf.targetEntityType_eq : r'.targetEntityType = r.targetEntityType := by
  unfold ApprovalRow.AnswerOf at h
  rw [h]

theorem ApprovalRow.AnswerOf.targetEntityId_eq : r'.targetEntityId = r.targetEntityId := by
  unfold ApprovalRow.AnswerOf at h
  rw [h]

theorem ApprovalRow.AnswerOf.approvalChainId_eq : r'.approvalChainId = r.approvalChainId := by
  unfold ApprovalRow.AnswerOf at h
  rw [h]

theorem ApprovalRow.AnswerOf.chainThreshold_eq : r'.chainThreshold = r.chainThreshold := by
  unfold ApprovalRow.AnswerOf at h
  rw [h]

end

def ApprovalRow.respond (r : ApprovalRow) (d : Decision) (respondedAt : Nat)
    (comments : Option String) : ApprovalRow :=
  { r with
    status := d.toStatus
    respondedAt := some respondedAt
    comments := comments }

end Prequest.Approval
