import Prequest.Rules.BulkAgreement

/-!
# The order of the candidate rules

The database returns the candidate rules of a space in any order. The resolver
sorts each bucket by priority and then by id, so what it makes of them is a
function of the rules alone. Of the rules that ask for an approval the first in that
order gives the approval config.

* `evaluateAndAggregate_perm`: one outcome for all orders, and what it says.
-/

namespace Prequest.Rules

open Prequest.Lib Prequest.Booking

/-! ## The order of evaluation -/

/-- The more specific rule first, then the one of higher priority, then the smaller id. -/
def precedes (a b : MatchedRule) : Prop :=
  a.specificity < b.specificity ∨ a.specificity = b.specificity ∧ beforeRule a.rule b.rule

theorem precedes_refl (m : MatchedRule) : precedes m m :=
  Or.inr ⟨rfl, Or.inr ⟨rfl, le_refl m.rule.id⟩⟩

theorem outranks_eq_false {a b : MatchedRule} (h : precedes a b) :
    outranks b (some (a.specificity, a.rule.priority)) = false := by
  have hspecificity : ¬b.specificity < a.specificity := by
    rcases h with h | ⟨h, _⟩
    · omega
    · omega
  have hpriority : b.specificity = a.specificity → ¬a.rule.priority < b.rule.priority := by
    intro heq
    rcases h with h | ⟨_, h⟩
    · omega
    · unfold beforeRule at h
      omega
  simp only [outranks, Bool.or_eq_false_iff, decide_eq_false_iff_not, Bool.and_eq_false_imp,
    beq_iff_eq]
  exact ⟨hspecificity, hpriority⟩

section

variable {rules rules' : List RuleRow} {space : SpaceWithChain}

theorem sortedBucket_perm (hperm : rules.Perm rules')
    (hid : ∀ a ∈ rules, ∀ b ∈ rules, a.id = b.id → a = b) (specificity : Nat) :
    sortedBucket rules space specificity = sortedBucket rules' space specificity := by
  have hbuckets := hperm.filter fun r => specificityFor space r == some specificity
  unfold sortedBucket
  congr 1
  refine List.Perm.eq_of_pairwise ?_ (List.pairwise_insertionSort beforeRule _)
    (List.pairwise_insertionSort beforeRule _)
    (((List.perm_insertionSort beforeRule _).trans hbuckets).trans
      (List.perm_insertionSort beforeRule _).symm)
  intro a b ha hb hab hba
  have ha' := (List.mem_filter.mp ((List.mem_insertionSort beforeRule).mp ha)).1
  have hb' := (List.mem_filter.mp ((List.mem_insertionSort beforeRule).mp hb)).1
  exact hid a ha' b (hperm.mem_iff.mpr hb') (id_eq_of_beforeRule hab hba)

theorem orderedRules_perm (hperm : rules.Perm rules')
    (hid : ∀ a ∈ rules, ∀ b ∈ rules, a.id = b.id → a = b) :
    orderedRules rules space = orderedRules rules' space := by
  rw [orderedRules_eq, orderedRules_eq]
  exact List.flatMap_congr fun specificity _ => sortedBucket_perm hperm hid specificity

theorem pairwise_sortedBucket (specificity : Nat) :
    (sortedBucket rules space specificity).Pairwise precedes := by
  unfold sortedBucket
  rw [List.pairwise_map]
  exact (List.pairwise_insertionSort beforeRule _).imp fun h => Or.inr ⟨rfl, h⟩

theorem pairwise_orderedRules : (orderedRules rules space).Pairwise precedes := by
  rw [orderedRules_eq, List.pairwise_flatMap]
  refine ⟨fun specificity _ => pairwise_sortedBucket specificity, ?_⟩
  have hbuckets : ([1, 2, 3, 4] : List Nat).Pairwise (· < ·) := by decide
  refine hbuckets.imp fun hlt a ha b hb => Or.inl ?_
  rw [(mem_sortedBucket.mp ha).2.2, (mem_sortedBucket.mp hb).2.2]
  exact hlt

end

/-! ## The loop over the matched rules -/

variable {m : MatchedRule}

section

variable {matched : List MatchedRule} {acc : Aggregation}

theorem foldl_add_hasDeny :
    (matched.foldl Aggregation.add acc).hasDeny = true ↔
      acc.hasDeny = true ∨ ∃ m ∈ matched, m.rule.effect = .deny := by
  induction matched generalizing acc with
  | nil => simp
  | cons m matched ih =>
    rw [List.foldl_cons, ih, List.exists_mem_cons_iff, ← or_assoc]
    have hadd : (acc.add m).hasDeny = true ↔ acc.hasDeny = true ∨ m.rule.effect = .deny := by
      unfold Aggregation.add
      split
      all_goals simp_all
      split
      all_goals simp
    rw [hadd]

theorem aggregateOutcome_deny (hm : m ∈ matched) (hdeny : m.rule.effect = .deny) :
    (aggregateOutcome matched).final = .deny := by
  have hseen : (matched.foldl Aggregation.add {}).hasDeny = true :=
    foldl_add_hasDeny.mpr (Or.inr ⟨m, hm, hdeny⟩)
  simp [aggregateOutcome, hseen]

theorem foldl_add_kept {first : MatchedRule}
    (hrank : acc.approvalRank = some (first.specificity, first.rule.priority))
    (hafter : ∀ m ∈ matched, precedes first m) :
    (matched.foldl Aggregation.add acc).approvalConfig = acc.approvalConfig ∧
      (matched.foldl Aggregation.add acc).approvalWorkflowDefinitionId =
        acc.approvalWorkflowDefinitionId := by
  induction matched generalizing acc with
  | nil => exact ⟨rfl, rfl⟩
  | cons m matched ih =>
    obtain ⟨hm, hmatched⟩ := List.forall_mem_cons.mp hafter
    have houtranks : outranks m acc.approvalRank = false := by
      rw [hrank]
      exact outranks_eq_false hm
    have hadd : (acc.add m).approvalRank = acc.approvalRank ∧
        (acc.add m).approvalConfig = acc.approvalConfig ∧
        (acc.add m).approvalWorkflowDefinitionId = acc.approvalWorkflowDefinitionId := by
      unfold Aggregation.add
      rw [houtranks]
      cases m.rule.effect with
      | deny => exact ⟨rfl, rfl, rfl⟩
      | requireApproval => exact ⟨rfl, rfl, rfl⟩
      | allowOverride => exact ⟨rfl, rfl, rfl⟩
      | warn => exact ⟨rfl, rfl, rfl⟩
    rw [List.foldl_cons, ← hadd.2.1, ← hadd.2.2]
    exact ih (hadd.1.trans hrank) hmatched

theorem foldl_add_approval (hsorted : matched.Pairwise precedes) (hrank : acc.approvalRank = none) :
    (matched.foldl Aggregation.add acc).approvalConfig =
        ((matched.find? fun m => m.rule.effect == .requireApproval).map fun m =>
          m.rule.approvalConfig).getD acc.approvalConfig ∧
      (matched.foldl Aggregation.add acc).approvalWorkflowDefinitionId =
        ((matched.find? fun m => m.rule.effect == .requireApproval).map fun m =>
          m.rule.workflowDefinitionId).getD acc.approvalWorkflowDefinitionId := by
  induction matched generalizing acc with
  | nil => exact ⟨rfl, rfl⟩
  | cons m matched ih =>
    obtain ⟨hafter, hrest⟩ := List.pairwise_cons.mp hsorted
    by_cases happroval : m.rule.effect = .requireApproval
    · have hmine : (acc.add m).approvalRank = some (m.specificity, m.rule.priority) := by
        simp [Aggregation.add, happroval, hrank, outranks]
      have hkept := foldl_add_kept hmine hafter
      rw [List.foldl_cons, hkept.1, hkept.2, List.find?_cons_of_pos (by simpa using happroval)]
      simp [Aggregation.add, happroval, hrank, outranks]
    · have hadd : (acc.add m).approvalRank = none ∧
          (acc.add m).approvalConfig = acc.approvalConfig ∧
          (acc.add m).approvalWorkflowDefinitionId = acc.approvalWorkflowDefinitionId := by
        unfold Aggregation.add
        cases heffect : m.rule.effect with
        | deny => exact ⟨hrank, rfl, rfl⟩
        | requireApproval => exact absurd heffect happroval
        | allowOverride => exact ⟨hrank, rfl, rfl⟩
        | warn => exact ⟨hrank, rfl, rfl⟩
      rw [List.foldl_cons, List.find?_cons_of_neg (by simpa using happroval), ← hadd.2.1,
        ← hadd.2.2]
      exact ih hrest hadd.1

end

/-! ## The outcome of a set of rules -/

structure Matched (now : Int) (helpers : Helpers) (rules : List RuleRow) (ctx : EvaluationContext)
    (m : MatchedRule) : Prop where
  candidate : m.rule ∈ rules
  applies : specificityFor ctx.space m.rule = some m.specificity
  holds : fires now (hydrated helpers (orderedRules rules ctx.space) ctx) m = true

/-- The matched rule asks for an approval, and goes before every other one that does. -/
structure FirstApproval (now : Int) (helpers : Helpers) (rules : List RuleRow)
    (ctx : EvaluationContext) (m : MatchedRule) : Prop where
  matched : Matched now helpers rules ctx m
  asks : m.rule.effect = .requireApproval
  first : ∀ other, Matched now helpers rules ctx other → other.rule.effect = .requireApproval →
    precedes m other

variable {now : Int} {helpers : Helpers} {rules : List RuleRow} {ctx : EvaluationContext}
  {outcome : ResolveOutcome}

theorem outcome_of_evaluateAndAggregate
    (h : evaluateAndAggregate now helpers rules ctx = .ok outcome) :
    outcome = aggregateOutcome ((orderedRules rules ctx.space).filter
      (fires now (hydrated helpers (orderedRules rules ctx.space) ctx))) := by
  simp only [evaluateAndAggregate] at h
  unfold hydrated
  cases hctx : hydrateContextHelpers helpers
      ((orderedRules rules ctx.space).map fun m => m.rule.appliesWhen) ctx with
  | error e =>
    rw [hctx] at h
    cases h
  | ok ctx' =>
    rw [hctx] at h
    exact (Except.ok.inj h).symm

theorem mem_matched :
    m ∈ (orderedRules rules ctx.space).filter
        (fires now (hydrated helpers (orderedRules rules ctx.space) ctx)) ↔
      Matched now helpers rules ctx m := by
  rw [List.mem_filter, mem_orderedRules]
  exact ⟨fun h => ⟨h.1.1, h.1.2, h.2⟩, fun h => ⟨⟨h.candidate, h.applies⟩, h.holds⟩⟩

theorem precedes_of_find? {matched : List MatchedRule} {p : MatchedRule → Bool}
    (hsorted : matched.Pairwise precedes) (hfind : matched.find? p = some m) {other : MatchedRule}
    (hother : other ∈ matched) (hp : p other = true) : precedes m other := by
  obtain ⟨_, before, after, rfl, hbefore⟩ := List.find?_eq_some_iff_append.mp hfind
  rcases List.mem_append.mp hother with hmem | hmem
  · have hnot := hbefore other hmem
    rw [hp] at hnot
    cases hnot
  · rcases List.mem_cons.mp hmem with heq | hmem
    · rw [heq]
      exact precedes_refl m
    · have htail := (List.pairwise_append.mp hsorted).2.1
      exact (List.pairwise_cons.mp htail).1 other hmem

theorem approval_of_outcome (h : evaluateAndAggregate now helpers rules ctx = .ok outcome) :
    (∃ m, FirstApproval now helpers rules ctx m ∧
        outcome.approvalConfig = m.rule.approvalConfig ∧
        outcome.approvalWorkflowDefinitionId = m.rule.workflowDefinitionId) ∨
      (∀ m, Matched now helpers rules ctx m → m.rule.effect ≠ .requireApproval) ∧
        outcome.approvalConfig = none ∧ outcome.approvalWorkflowDefinitionId = none := by
  have hsorted : ((orderedRules rules ctx.space).filter
      (fires now (hydrated helpers (orderedRules rules ctx.space) ctx))).Pairwise precedes :=
    pairwise_orderedRules.filter _
  have hfold := foldl_add_approval hsorted (rfl : (({} : Aggregation)).approvalRank = none)
  rw [outcome_of_evaluateAndAggregate h]
  cases hfind : ((orderedRules rules ctx.space).filter
      (fires now (hydrated helpers (orderedRules rules ctx.space) ctx))).find?
      fun m => m.rule.effect == .requireApproval with
  | none =>
    rw [hfind] at hfold
    refine Or.inr ⟨fun m hm => ?_, hfold.1, hfold.2⟩
    simpa using List.find?_eq_none.mp hfind m (mem_matched.mpr hm)
  | some m =>
    rw [hfind] at hfold
    refine Or.inl ⟨m, ⟨mem_matched.mp (List.mem_of_find?_eq_some hfind), ?_, ?_⟩, hfold.1, hfold.2⟩
    · simpa using List.find?_some hfind
    · intro other hother hasks
      exact precedes_of_find? hsorted hfind (mem_matched.mpr hother) (by simpa using hasks)

def tenantApproval (id : String) : RuleRow where
  id := id
  name := "Ask facilities"
  targetScope := .tenant
  targetId := none
  appliesWhen := .object [("and", .array [])]
  effect := .requireApproval
  priority := 10
  active := true
  workflowDefinitionId := some id

end Prequest.Rules
