import Mathlib.Data.List.Sort

/-!
# Service rules

A service rule says what a line of an order needs: nothing, a warning, an
approval, or that it is denied. The rules that match a line are ordered, the most
specific first, and combined into one outcome.

* `mem_approverTargets`: the approver targets come from the `require_approval`
  rules.

Whether the predicate of a rule holds of a line is a parameter; a predicate that
fails to evaluate does not hold.
-/

namespace Prequest.Orders

inductive ServiceRuleEffect where
  | deny
  | requireApproval
  | allowOverride
  | warn
  | allow
  deriving DecidableEq, Repr

inductive ServiceRuleTargetKind where
  | catalogItem
  | menu
  | catalogCategory
  | tenant
  deriving DecidableEq, Repr

/-- `approval_config.approver_target`. -/
inductive ApproverTargetKind where
  | person
  | role
  | derived
  | costCenterDefaultApprover
  deriving DecidableEq, Repr

/-- The `approval_config` column. -/
structure ApprovalConfig where
  approverTarget : Option ApproverTargetKind
  personId : Option Nat := none
  roleId : Option Nat := none
  expr : Option String := none
  deriving DecidableEq, Repr

/-- A row of `service_rules`. -/
structure ServiceRuleRow where
  id : Nat
  targetKind : ServiceRuleTargetKind := .tenant
  targetId : Option String := none
  effect : ServiceRuleEffect
  approvalConfig : Option ApprovalConfig := none
  denialMessage : Option String := none
  priority : Int := 0
  active : Bool := true
  requiresInternalSetup : Bool := false
  internalSetupLeadTimeMinutes : Option Nat := none
  deriving DecidableEq, Repr

inductive ApproverTarget where
  | person (personId : Nat)
  | role (roleId : Nat)
  | derived (expr : String)
  deriving DecidableEq, Repr

/-- What the rules say about a line. -/
structure ServiceRuleOutcome where
  effect : ServiceRuleEffect
  matchedRuleIds : List Nat
  denialMessages : List String
  warningMessages : List String
  approverTargets : List (Nat × ApproverTarget)
  requiresInternalSetup : Bool
  internalSetupLeadTimeMinutes : Option Nat
  deriving DecidableEq, Repr

/-- What a rule's target is compared with. -/
structure RuleLine where
  catalogItemId : String
  catalogItemCategory : Option String
  menuId : Option String
  deriving DecidableEq, Repr

/-! ## Matching -/

/-- How specific a rule is for a line, from 1 for its catalog item to 4 for the tenant. -/
def specificity (rule : ServiceRuleRow) (line : RuleLine) : Option Nat :=
  if !rule.active then none
  else match rule.targetKind with
    | .catalogItem => if rule.targetId = some line.catalogItemId then some 1 else none
    | .menu => if rule.targetId.isSome && rule.targetId == line.menuId then some 2 else none
    | .catalogCategory =>
        if rule.targetId.isSome && rule.targetId == line.catalogItemCategory then some 3 else none
    | .tenant => some 4

/-- `compareServiceRulesWithinSpecificity(a, b) <= 0`. -/
def beforeWithinSpecificity (a b : ServiceRuleRow) : Prop :=
  b.priority < a.priority ∨ a.priority = b.priority ∧ a.id ≤ b.id

instance (a b : ServiceRuleRow) : Decidable (beforeWithinSpecificity a b) := by
  unfold beforeWithinSpecificity
  infer_instance

/-- The rules of one specificity, the highest priority first. -/
def bucket (rules : List ServiceRuleRow) (line : RuleLine) (s : Nat) : List ServiceRuleRow :=
  (rules.filter fun r => specificity r line == some s).insertionSort beforeWithinSpecificity

/-- The rules that apply to a line, the most specific first, whose predicate holds of it. -/
def matchAndEvaluate (evaluate : ServiceRuleRow → Bool) (rules : List ServiceRuleRow)
    (line : RuleLine) : List ServiceRuleRow :=
  ([1, 2, 3, 4].flatMap (bucket rules line)).filter evaluate

/-! ## Aggregation -/

/-- A text that is present: an empty one counts as absent. -/
def nonEmpty (text : Option String) : Option String := text.filter (· ≠ "")

def extractApproverTargets (rule : ServiceRuleRow) : List (Nat × ApproverTarget) :=
  match rule.approvalConfig with
  | none => []
  | some cfg =>
      match cfg.approverTarget with
      | none => []
      | some .person => (cfg.personId.map fun id => (rule.id, .person id)).toList
      | some .role => (cfg.roleId.map fun id => (rule.id, .role id)).toList
      | some .derived => ((nonEmpty cfg.expr).map fun expr => (rule.id, .derived expr)).toList
      | some .costCenterDefaultApprover => [(rule.id, .derived "cost_center.default_approver")]

def allowOutcome : ServiceRuleOutcome where
  effect := .allow
  matchedRuleIds := []
  denialMessages := []
  warningMessages := []
  approverTargets := []
  requiresInternalSetup := false
  internalSetupLeadTimeMinutes := none

def combineEffect : ServiceRuleEffect → ServiceRuleEffect → ServiceRuleEffect
  | _, .deny => .deny
  | effect, .requireApproval => if effect = .deny then .deny else .requireApproval
  | effect, .allowOverride => if effect = .allow then .allowOverride else effect
  | effect, .warn => effect
  | effect, .allow => effect

def addRule (acc : ServiceRuleOutcome) (rule : ServiceRuleRow) : ServiceRuleOutcome where
  effect := combineEffect acc.effect rule.effect
  matchedRuleIds := acc.matchedRuleIds ++ [rule.id]
  denialMessages := acc.denialMessages ++
    match rule.effect with
    | .deny | .requireApproval => (nonEmpty rule.denialMessage).toList
    | _ => []
  warningMessages := acc.warningMessages ++
    if rule.effect = .warn then (nonEmpty rule.denialMessage).toList else []
  approverTargets := acc.approverTargets ++
    if rule.effect = .requireApproval then extractApproverTargets rule else []
  requiresInternalSetup := acc.requiresInternalSetup || rule.requiresInternalSetup
  internalSetupLeadTimeMinutes :=
    match rule.requiresInternalSetup, rule.internalSetupLeadTimeMinutes with
    | true, some minutes => some (max (acc.internalSetupLeadTimeMinutes.getD 0) minutes)
    | _, _ => acc.internalSetupLeadTimeMinutes

def aggregateMatchedRules (matched : List ServiceRuleRow) : ServiceRuleOutcome :=
  matched.foldl addRule allowOutcome

def ServiceRuleOutcome.pending (outcome : ServiceRuleOutcome) : Bool :=
  outcome.effect == .requireApproval || outcome.effect == .allowOverride

/-! ## The combined effect -/

variable {matched : List ServiceRuleRow} {acc : ServiceRuleOutcome}

theorem foldl_addRule_deny : (matched.foldl addRule acc).effect = .deny ↔
      acc.effect = .deny ∨ ∃ r ∈ matched, r.effect = .deny := by
  induction matched generalizing acc with
  | nil => simp
  | cons rule matched ih =>
    rw [List.foldl_cons, ih]
    have hcombine : (addRule acc rule).effect = .deny ↔
        acc.effect = .deny ∨ rule.effect = .deny := by
      simp only [addRule]
      cases rule.effect <;> cases acc.effect <;> decide
    rw [hcombine, List.exists_mem_cons_iff, or_assoc]

def ServiceRuleRow.asksApproval (rule : ServiceRuleRow) : Bool :=
  rule.effect == .requireApproval || rule.effect == .allowOverride

theorem foldl_addRule_pending (hwarn : acc.effect ≠ .warn) :
    (matched.foldl addRule acc).pending = true ↔
      acc.effect ≠ .deny ∧ (∀ r ∈ matched, r.effect ≠ .deny) ∧
        (acc.pending = true ∨ ∃ r ∈ matched, r.asksApproval = true) := by
  induction matched generalizing acc with
  | nil =>
    simp only [List.foldl_nil, List.not_mem_nil, false_and, exists_false, or_false,
      IsEmpty.forall_iff, implies_true, true_and]
    constructor
    · intro h
      refine ⟨?_, h⟩
      intro hdeny
      rw [ServiceRuleOutcome.pending, hdeny] at h
      cases h
    · intro h
      exact h.2
  | cons rule matched ih =>
    have hwarn' : (addRule acc rule).effect ≠ .warn := by
      revert hwarn
      simp only [addRule]
      cases rule.effect <;> cases acc.effect <;> decide
    rw [List.foldl_cons, ih hwarn']
    have hdeny : (addRule acc rule).effect ≠ .deny ↔ acc.effect ≠ .deny ∧ rule.effect ≠ .deny := by
      simp only [addRule]
      cases rule.effect <;> cases acc.effect <;> decide
    have hpending : (addRule acc rule).effect ≠ .deny →
        ((addRule acc rule).pending = true ↔ acc.pending = true ∨ rule.asksApproval = true) := by
      revert hwarn
      simp only [addRule, ServiceRuleOutcome.pending, ServiceRuleRow.asksApproval]
      cases rule.effect <;> cases acc.effect <;> decide
    rw [List.forall_mem_cons, List.exists_mem_cons_iff]
    constructor
    · intro h
      obtain ⟨hacc, hrest, happroval⟩ := h
      obtain ⟨hacc', hrule⟩ := hdeny.mp hacc
      rw [hpending hacc, or_assoc] at happroval
      exact ⟨hacc', ⟨hrule, hrest⟩, happroval⟩
    · intro h
      obtain ⟨hacc, ⟨hrule, hrest⟩, happroval⟩ := h
      have hacc' := hdeny.mpr ⟨hacc, hrule⟩
      rw [← or_assoc, ← hpending hacc'] at happroval
      exact ⟨hacc', hrest, happroval⟩

theorem deny_iff :
    (aggregateMatchedRules matched).effect = .deny ↔ ∃ r ∈ matched, r.effect = .deny := by
  rw [aggregateMatchedRules, foldl_addRule_deny]
  simp [allowOutcome]

theorem pending_iff : (aggregateMatchedRules matched).pending = true ↔
      (∀ r ∈ matched, r.effect ≠ .deny) ∧ ∃ r ∈ matched, r.asksApproval = true := by
  rw [aggregateMatchedRules, foldl_addRule_pending (by decide)]
  simp [allowOutcome, ServiceRuleOutcome.pending]

theorem foldl_addRule_approverTargets :
    (matched.foldl addRule acc).approverTargets = acc.approverTargets ++
      (matched.filter fun r => r.effect = .requireApproval).flatMap extractApproverTargets := by
  induction matched generalizing acc with
  | nil => simp
  | cons rule matched ih =>
    rw [List.foldl_cons, ih]
    by_cases heffect : rule.effect = .requireApproval
    · simp [addRule, heffect]
    · simp [addRule, heffect]

theorem mem_approverTargets {t : Nat × ApproverTarget} :
    t ∈ (aggregateMatchedRules matched).approverTargets ↔
      ∃ r ∈ matched, r.effect = .requireApproval ∧ t ∈ extractApproverTargets r := by
  rw [aggregateMatchedRules, foldl_addRule_approverTargets]
  simp [allowOutcome, and_assoc]

end Prequest.Orders
