import Prequest.Lib.FirstSeen
import Prequest.Lib.KeyedMerge
import Prequest.Orders.ApprovalRouting

/-!
# Merging approval scopes

An approver who is asked about several lines has one row. Its scope lists the entities of
all of them, and a rule is a reason once. A row that is pending takes from a later request
what it does not list yet.

* `mergeLaw_iff`: the law holds exactly then.
-/

namespace Prequest.Orders

open Prequest.Approval Prequest.Lib

/-! ## The id lists -/

/-- A key of `ApprovalScope`. -/
inductive IdKind where
  | reservation
  | order
  | orderLineItem
  | ticket
  | assetReservation
  deriving DecidableEq, Repr

def IdKind.Id : IdKind → Type
  | .reservation | .ticket => Nat
  | .order | .orderLineItem | .assetReservation => PlanUuid

instance : (k : IdKind) → DecidableEq k.Id
  | .reservation | .ticket => inferInstanceAs (DecidableEq Nat)
  | .order | .orderLineItem | .assetReservation => inferInstanceAs (DecidableEq PlanUuid)

def ApprovalScope.ids (scope : ApprovalScope) : (k : IdKind) → List k.Id
  | .reservation => scope.reservationIds
  | .order => scope.orderIds
  | .orderLineItem => scope.orderLineItemIds
  | .ticket => scope.ticketIds
  | .assetReservation => scope.assetReservationIds

theorem ApprovalScope.ext_ids {s t : ApprovalScope} (h : ∀ k, s.ids k = t.ids k) : s = t := by
  cases s
  cases t
  rw [ApprovalScope.mk.injEq]
  exact ⟨h .reservation, h .order, h .orderLineItem, h .ticket, h .assetReservation⟩

@[simp] theorem ids_mergeScopeInto (s t : ApprovalScope) (k : IdKind) :
    (mergeScopeInto s t).ids k = mergeIds (s.ids k) (t.ids k) := by
  cases k <;> rfl

section

variable {α : Type} [DecidableEq α]

theorem mergeIds_assoc (l l' l'' : List α) :
    mergeIds (mergeIds l l') l'' = mergeIds l (mergeIds l' l'') := by
  have hself : ∀ k : List α, k.eraseDups.eraseDups = k.eraseDups :=
    fun k => eraseDups_eq_self (nodup_eraseDups k)
  have hnil : ∀ {k : List α}, k ≠ [] → k.eraseDups.isEmpty = false := by
    intro k hk
    obtain ⟨a, ha⟩ := List.exists_mem_of_ne_nil _ hk
    cases hk' : k.eraseDups with
    | nil => exact absurd (hk' ▸ List.mem_eraseDups.mpr ha) List.not_mem_nil
    | cons b k => rfl
  cases l'' with
  | nil => rfl
  | cons c l'' =>
    cases l' with
    | nil =>
      have hright : mergeIds [] (c :: l'') = (c :: l'').eraseDups := rfl
      rw [hright]
      unfold mergeIds
      rw [hnil (List.cons_ne_nil c l'')]
      simp only [List.isEmpty_nil, List.isEmpty_cons, if_true, Bool.false_eq_true, if_false]
      rw [← eraseDups_append_eraseDups l (c :: l'').eraseDups, hself, eraseDups_append_eraseDups]
    | cons b l' =>
      have hright : mergeIds (b :: l') (c :: l'') = (b :: l' ++ c :: l'').eraseDups := rfl
      have hleft : mergeIds l (b :: l') = (l ++ b :: l').eraseDups := rfl
      rw [hright, hleft]
      unfold mergeIds
      rw [hnil (by simp)]
      simp only [List.isEmpty_cons, Bool.false_eq_true, if_false]
      rw [← eraseDups_append_eraseDups (l ++ b :: l').eraseDups, hself,
        eraseDups_append_eraseDups, ← eraseDups_append_eraseDups l, hself,
        eraseDups_append_eraseDups, List.append_assoc]

theorem mergeIds_self_perm_iff {l : List α} : (mergeIds l l).Perm l ↔ l.Nodup := by
  cases l with
  | nil => exact iff_of_true (List.Perm.refl _) List.nodup_nil
  | cons a l =>
    have hself : (mergeIds (a :: l) (a :: l)).Perm (a :: l).eraseDups := by
      refine eraseDups_perm_of_mem_iff fun x => ?_
      rw [List.mem_append, or_self]
    constructor
    · exact fun h => (hself.symm.trans h).nodup (nodup_eraseDups _)
    · intro h
      rw [eraseDups_eq_self h] at hself
      exact hself

theorem mergeIds_comm {l l' : List α} (hl : l.Nodup) (hl' : l'.Nodup) :
    (mergeIds l l').Perm (mergeIds l' l) := by
  cases l with
  | nil =>
    cases l' with
    | nil => exact List.Perm.refl _
    | cons b l' =>
      have hright : mergeIds [] (b :: l') = (b :: l').eraseDups := rfl
      rw [hright, eraseDups_eq_self hl']
      exact List.Perm.refl _
  | cons a l =>
    cases l' with
    | nil =>
      have hright : mergeIds [] (a :: l) = (a :: l).eraseDups := rfl
      rw [hright, eraseDups_eq_self hl]
      exact List.Perm.refl _
    | cons b l' => exact eraseDups_perm List.perm_append_comm

end

/-! ## Breakdowns -/

/-- `mergeBreakdown`: a pending row and what is added to it. -/
def mergeBreakdown (existing addition : PlanScopeBreakdown) : PlanScopeBreakdown where
  toApprovalScope := mergeScopeInto existing.toApprovalScope addition.toApprovalScope
  reasons := mergeByKey ScopeReason.ruleId existing.reasons addition.reasons

structure SameBreakdown (a b : PlanScopeBreakdown) : Prop where
  ids : ∀ k, (a.ids k).Perm (b.ids k)
  reasons : a.reasons.Perm b.reasons

/-- The laws of merging, as to the order of ids and reasons. -/
structure MergeLaw (a b c : PlanScopeBreakdown) : Prop where
  comm : SameBreakdown (mergeBreakdown a b) (mergeBreakdown b a)
  assoc : SameBreakdown (mergeBreakdown (mergeBreakdown a b) c)
    (mergeBreakdown a (mergeBreakdown b c))
  idem : SameBreakdown (mergeBreakdown a a) a ∧ SameBreakdown (mergeBreakdown b b) b
  keepsIds : ∀ k x, x ∈ (mergeBreakdown a b).ids k ↔ x ∈ a.ids k ∨ x ∈ b.ids k
  keepsRules : ∀ ruleId, (∃ r ∈ (mergeBreakdown a b).reasons, r.ruleId = ruleId) ↔
    (∃ r ∈ a.reasons, r.ruleId = ruleId) ∨ ∃ r ∈ b.reasons, r.ruleId = ruleId

/-- No id is listed twice. A rule that both name has the same reasons in both, and one that a single
breakdown names is named once. -/
structure MergesCleanly (a b : PlanScopeBreakdown) : Prop where
  ids : ∀ k, (a.ids k).Nodup ∧ (b.ids k).Nodup
  reasons : ∀ ruleId, Concurring (ofKey ScopeReason.ruleId ruleId a.reasons)
    (ofKey ScopeReason.ruleId ruleId b.reasons)

section

variable {a b c : PlanScopeBreakdown}

@[simp] theorem ids_mergeBreakdown (a b : PlanScopeBreakdown) (k : IdKind) :
    (mergeBreakdown a b).ids k = mergeIds (a.ids k) (b.ids k) :=
  ids_mergeScopeInto _ _ k

theorem mergeBreakdown_self_iff :
    SameBreakdown (mergeBreakdown a a) a ↔ ∀ k, (a.ids k).Nodup := by
  constructor
  · intro h k
    have hk := h.ids k
    rwa [ids_mergeBreakdown, mergeIds_self_perm_iff] at hk
  · intro h
    refine ⟨fun k => ?_, mergeByKey_self ScopeReason.ruleId a.reasons⟩
    rw [ids_mergeBreakdown]
    exact mergeIds_self_perm_iff.mpr (h k)

theorem mergeLaw_iff : MergeLaw a b c ↔ MergesCleanly a b := by
  constructor
  · intro h
    refine ⟨fun k => ⟨?_, ?_⟩, ?_⟩
    · exact mergeBreakdown_self_iff.mp h.idem.1 k
    · exact mergeBreakdown_self_iff.mp h.idem.2 k
    · exact (mergeByKey_comm_iff ScopeReason.ruleId).mp h.comm.reasons
  · intro h
    refine ⟨⟨fun k => ?_, ?_⟩, ⟨fun k => ?_, ?_⟩, ⟨?_, ?_⟩, fun k x => ?_, fun ruleId => ?_⟩
    · rw [ids_mergeBreakdown, ids_mergeBreakdown]
      exact mergeIds_comm (h.ids k).1 (h.ids k).2
    · exact (mergeByKey_comm_iff ScopeReason.ruleId).mpr h.reasons
    · simp only [ids_mergeBreakdown, mergeIds_assoc]
      exact List.Perm.refl _
    · exact mergeByKey_assoc ScopeReason.ruleId a.reasons b.reasons c.reasons
    · exact mergeBreakdown_self_iff.mpr fun k => (h.ids k).1
    · exact mergeBreakdown_self_iff.mpr fun k => (h.ids k).2
    · rw [ids_mergeBreakdown]
      exact mem_mergeIds
    · exact exists_key_mergeByKey ScopeReason.ruleId

end

end Prequest.Orders
