import Mathlib.Order.Bounds.Basic
import Prequest.Lib.Sorting
import Prequest.Orders.ServiceRule

/-!
# Service rules as a join

What the rules say about a line should be the join of what each matched rule says:
the strongest effect, every approver and message, setup work if one rule wants it,
with the longest lead time. The resolver computes all of this in one loop over the
matched rules. A rule that only warns leaves the effect as it is, although the
documented order puts a warning above an override.

* `joinLaw_iff`: the outcome is the join exactly when no warning is the strongest effect.
-/

namespace Prequest.Orders

open Prequest.Lib

/-! ## Matching -/

/-- The predicate engine of a context: it fetches what the predicates of the candidate rules look up,
which may fail, and then says of each rule whether it fires. -/
abbrev PredicateEngine (ε : Type) : Type := List ServiceRuleRow → Except ε (ServiceRuleRow → Bool)

/-- The rules that apply to a line, the most specific first. -/
def orderedRules (rules : List ServiceRuleRow) (line : RuleLine) : List ServiceRuleRow :=
  [1, 2, 3, 4].flatMap (bucket rules line)

variable {ε : Type} {r : ServiceRuleRow}

/-- `matchAndEvaluate`, with the hydration of the context. -/
def matchWithEngine (engine : PredicateEngine ε) (rules : List ServiceRuleRow) (line : RuleLine) :
    Except ε (List ServiceRuleRow) :=
  if (orderedRules rules line).isEmpty then .ok []
  else match engine (orderedRules rules line) with
    | .error e => .error e
    | .ok fires => .ok ((orderedRules rules line).filter fires)

theorem matchWithEngine_of_ok {engine : PredicateEngine ε} {rules : List ServiceRuleRow}
    {line : RuleLine} {fires : ServiceRuleRow → Bool}
    (h : engine (orderedRules rules line) = .ok fires) :
    matchWithEngine engine rules line = .ok (matchAndEvaluate fires rules line) := by
  unfold matchWithEngine matchAndEvaluate
  split
  · rename_i hempty
    have hnil : orderedRules rules line = [] := List.isEmpty_iff.mp hempty
    unfold orderedRules at hnil
    rw [hnil, List.filter_nil]
  · rw [h]
    rfl

def Matched (engine : PredicateEngine ε) (rules : List ServiceRuleRow) (line : RuleLine)
    (r : ServiceRuleRow) : Prop :=
  r ∈ rules ∧ (specificity r line).isSome = true ∧
    ∃ fires, engine (orderedRules rules line) = .ok fires ∧ fires r = true

/-! ## The join -/

def ServiceRuleEffect.strength : ServiceRuleEffect → Nat
  | .deny => 4
  | .requireApproval => 3
  | .warn => 2
  | .allowOverride => 1
  | .allow => 0

/-- The approver target that an `approval_config` names. -/
inductive ApprovalConfig.Names : ApprovalConfig → ApproverTarget → Prop where
  | person {cfg : ApprovalConfig} {personId : Nat} (htarget : cfg.approverTarget = some .person)
      (hid : cfg.personId = some personId) : cfg.Names (.person personId)
  | role {cfg : ApprovalConfig} {roleId : Nat} (htarget : cfg.approverTarget = some .role)
      (hid : cfg.roleId = some roleId) : cfg.Names (.role roleId)
  | derived {cfg : ApprovalConfig} {expr : String} (htarget : cfg.approverTarget = some .derived)
      (hexpr : cfg.expr = some expr) (hne : expr ≠ "") : cfg.Names (.derived expr)
  | costCenterDefaultApprover {cfg : ApprovalConfig}
      (htarget : cfg.approverTarget = some .costCenterDefaultApprover) :
      cfg.Names (.derived "cost_center.default_approver")

/-- The rule has a text for the requester. -/
def ServiceRuleRow.Says (r : ServiceRuleRow) (message : String) : Prop :=
  r.denialMessage = some message ∧ message ≠ ""

structure IsJoin (rules : ServiceRuleRow → Prop) (outcome : ServiceRuleOutcome) : Prop where
  attained : outcome.effect = .allow ∨ ∃ r, rules r ∧ r.effect = outcome.effect
  strongest : ∀ r, rules r → r.effect.strength ≤ outcome.effect.strength
  approverTargets : ∀ r, rules r → r.effect = .requireApproval → ∀ cfg, r.approvalConfig = some cfg →
    ∀ target, cfg.Names target → (r.id, target) ∈ outcome.approverTargets
  denialMessages : ∀ r, rules r → r.effect = .deny ∨ r.effect = .requireApproval →
    ∀ message, r.Says message → message ∈ outcome.denialMessages
  warningMessages : ∀ r, rules r → r.effect = .warn →
    ∀ message, r.Says message → message ∈ outcome.warningMessages
  requiresInternalSetup : outcome.requiresInternalSetup = true ↔
    ∃ r, rules r ∧ r.requiresInternalSetup = true
  leadTime : ∀ minutes, outcome.internalSetupLeadTimeMinutes = some minutes ↔
    IsGreatest {m | ∃ r, rules r ∧ r.requiresInternalSetup = true ∧
      r.internalSetupLeadTimeMinutes = some m} minutes

/-- The second outcome asks for at least as much as the first one, in every component. -/
structure NoWeaker (a b : ServiceRuleOutcome) : Prop where
  effect : a.effect.strength ≤ b.effect.strength
  approverTargets : a.approverTargets ⊆ b.approverTargets
  denialMessages : a.denialMessages ⊆ b.denialMessages
  warningMessages : a.warningMessages ⊆ b.warningMessages
  requiresInternalSetup : a.requiresInternalSetup = true → b.requiresInternalSetup = true
  leadTime : ∀ minutes, a.internalSetupLeadTimeMinutes = some minutes →
    ∃ minutes', b.internalSetupLeadTimeMinutes = some minutes' ∧ minutes ≤ minutes'

/-- The rules of a line have one outcome, their join, and more rules never weaken an outcome. -/
structure JoinLaw (engine : PredicateEngine ε) (rules : List ServiceRuleRow) (line : RuleLine) :
    Prop where
  order : ∀ rules', rules.Perm rules' →
    (matchWithEngine engine rules' line).map aggregateMatchedRules =
      (matchWithEngine engine rules line).map aggregateMatchedRules
  join : ∀ matched, matchWithEngine engine rules line = .ok matched →
    IsJoin (Matched engine rules line) (aggregateMatchedRules matched)
  monotone : ∀ matched matched', matched ⊆ matched' →
    NoWeaker (aggregateMatchedRules matched) (aggregateMatchedRules matched')

/-- A matched rule that warns is matched beside one that denies or asks for an approval. -/
def WarnsBesideStronger (engine : PredicateEngine ε) (rules : List ServiceRuleRow)
    (line : RuleLine) : Prop :=
  (∃ r, Matched engine rules line r ∧ r.effect = .warn) →
    ∃ r, Matched engine rules line r ∧ (r.effect = .deny ∨ r.effect = .requireApproval)

/-! ## One order -/

section

variable {engine : PredicateEngine ε} {rules rules' : List ServiceRuleRow} {line : RuleLine}

instance : IsTrans ServiceRuleRow beforeWithinSpecificity where
  trans a b c := by
    unfold beforeWithinSpecificity
    omega

instance : Std.Total beforeWithinSpecificity where
  total a b := by
    unfold beforeWithinSpecificity
    omega

theorem bucket_perm (hperm : rules.Perm rules')
    (hid : ∀ a ∈ rules, ∀ b ∈ rules, a.id = b.id → a = b) (s : Nat) :
    bucket rules line s = bucket rules' line s := by
  refine insertionSort_eq_of_perm (hperm.filter _) ?_
  intro a ha b hb hab hba
  refine hid a (List.mem_filter.mp ha).1 b (List.mem_filter.mp hb).1 ?_
  unfold beforeWithinSpecificity at hab hba
  omega

theorem orderedRules_perm (hperm : rules.Perm rules')
    (hid : ∀ a ∈ rules, ∀ b ∈ rules, a.id = b.id → a = b) :
    orderedRules rules line = orderedRules rules' line :=
  List.flatMap_congr fun s _ => bucket_perm hperm hid s

theorem matchWithEngine_perm (hperm : rules.Perm rules')
    (hid : ∀ a ∈ rules, ∀ b ∈ rules, a.id = b.id → a = b) :
    matchWithEngine engine rules line = matchWithEngine engine rules' line := by
  unfold matchWithEngine
  rw [orderedRules_perm hperm hid]

theorem specificity_mem {s : Nat} (h : specificity r line = some s) : s ∈ [1, 2, 3, 4] := by
  unfold specificity at h
  grind

theorem mem_orderedRules :
    r ∈ orderedRules rules line ↔ r ∈ rules ∧ (specificity r line).isSome = true := by
  simp only [orderedRules, bucket, List.mem_flatMap, List.mem_insertionSort, List.mem_filter,
    beq_iff_eq, Option.isSome_iff_exists]
  constructor
  · rintro ⟨s, _, hr, hs⟩
    exact ⟨hr, s, hs⟩
  · rintro ⟨hr, s, hs⟩
    exact ⟨s, specificity_mem hs, hr, hs⟩

theorem mem_of_matchWithEngine {matched : List ServiceRuleRow}
    (h : matchWithEngine engine rules line = .ok matched) (r : ServiceRuleRow) :
    r ∈ matched ↔ Matched engine rules line r := by
  unfold Matched
  rw [← and_assoc, ← mem_orderedRules]
  unfold matchWithEngine at h
  split at h
  · rename_i hempty
    cases h
    simp [List.isEmpty_iff.mp hempty]
  · split at h
    · cases h
    · rename_i fires hfires
      cases h
      simp [hfires, List.mem_filter]

end

/-! ## The loop -/

section

variable {matched matched' : List ServiceRuleRow} {acc : ServiceRuleOutcome}

theorem foldl_addRule_strength (hwarn : acc.effect ≠ .warn) :
    (matched.foldl addRule acc).effect ≠ .warn ∧
      acc.effect.strength ≤ (matched.foldl addRule acc).effect.strength ∧
      (∀ r ∈ matched, r.effect ≠ .warn →
        r.effect.strength ≤ (matched.foldl addRule acc).effect.strength) ∧
      ((matched.foldl addRule acc).effect = acc.effect ∨
        ∃ r ∈ matched, r.effect = (matched.foldl addRule acc).effect) := by
  induction matched generalizing acc with
  | nil => exact ⟨hwarn, le_rfl, by simp, Or.inl rfl⟩
  | cons rule matched ih =>
    have hstep : (addRule acc rule).effect ≠ .warn ∧
        acc.effect.strength ≤ (addRule acc rule).effect.strength ∧
        (rule.effect ≠ .warn → rule.effect.strength ≤ (addRule acc rule).effect.strength) ∧
        ((addRule acc rule).effect = acc.effect ∨ rule.effect = (addRule acc rule).effect) := by
      revert hwarn
      simp only [addRule]
      cases rule.effect <;> cases acc.effect <;> decide
    obtain ⟨hwarn', hacc, hrule, hfrom⟩ := hstep
    obtain ⟨hend, hle, hall, hsome⟩ := ih hwarn'
    rw [List.foldl_cons]
    refine ⟨hend, hacc.trans hle, ?_, ?_⟩
    · intro r hr hne
      rcases List.mem_cons.mp hr with rfl | hr
      · exact (hrule hne).trans hle
      · exact hall r hr hne
    · rcases hsome with hsame | ⟨r, hr, heq⟩
      · rcases hfrom with hkept | htaken
        · exact Or.inl (hsame.trans hkept)
        · exact Or.inr ⟨rule, List.mem_cons_self, htaken.trans hsame.symm⟩
      · exact Or.inr ⟨r, List.mem_cons_of_mem rule hr, heq⟩

def denialsOf (r : ServiceRuleRow) : List String :=
  match r.effect with
  | .deny | .requireApproval => (nonEmpty r.denialMessage).toList
  | _ => []

def warningsOf (r : ServiceRuleRow) : List String :=
  if r.effect = .warn then (nonEmpty r.denialMessage).toList else []

theorem foldl_addRule_messages :
    (matched.foldl addRule acc).denialMessages = acc.denialMessages ++ matched.flatMap denialsOf ∧
      (matched.foldl addRule acc).warningMessages =
        acc.warningMessages ++ matched.flatMap warningsOf := by
  induction matched generalizing acc with
  | nil => simp
  | cons rule matched ih =>
    rw [List.foldl_cons, ih.1, ih.2, List.flatMap_cons, List.flatMap_cons, ← List.append_assoc,
      ← List.append_assoc]
    exact ⟨rfl, rfl⟩

theorem foldl_addRule_setup :
    (matched.foldl addRule acc).requiresInternalSetup = true ↔
      acc.requiresInternalSetup = true ∨ ∃ r ∈ matched, r.requiresInternalSetup = true := by
  induction matched generalizing acc with
  | nil => simp
  | cons rule matched ih =>
    rw [List.foldl_cons, ih, List.exists_mem_cons_iff, ← or_assoc]
    simp only [addRule, Bool.or_eq_true]

def leadTimes (matched : List ServiceRuleRow) : List Nat :=
  matched.filterMap fun r => if r.requiresInternalSetup then r.internalSetupLeadTimeMinutes else none

variable {minutes : Nat} {longest : Option Nat}

theorem mem_leadTimes :
    minutes ∈ leadTimes matched ↔ ∃ r ∈ matched, r.requiresInternalSetup = true ∧
      r.internalSetupLeadTimeMinutes = some minutes := by
  simp only [leadTimes, List.mem_filterMap, Option.ite_none_right_eq_some]

theorem foldl_addRule_leadTime :
    (matched.foldl addRule acc).internalSetupLeadTimeMinutes =
      (leadTimes matched).foldl (fun longest m => some (max (longest.getD 0) m))
        acc.internalSetupLeadTimeMinutes := by
  induction matched generalizing acc with
  | nil => rfl
  | cons rule matched ih =>
    rw [List.foldl_cons, ih]
    unfold leadTimes
    cases hsetup : rule.requiresInternalSetup with
    | false => simp [addRule, hsetup]
    | true =>
      cases hlead : rule.internalSetupLeadTimeMinutes with
      | none => simp [addRule, hsetup, hlead]
      | some m => simp [addRule, hsetup, hlead]

theorem foldl_max_eq_some {ms : List Nat} :
    ms.foldl (fun longest m => some (max (longest.getD 0) m)) longest = some minutes ↔
      (longest = some minutes ∨ minutes ∈ ms) ∧
        ∀ m, longest = some m ∨ m ∈ ms → m ≤ minutes := by
  induction ms generalizing longest with
  | nil =>
    simp only [List.foldl_nil, List.not_mem_nil, or_false]
    constructor
    · intro h
      refine ⟨h, fun m hm => ?_⟩
      rw [h] at hm
      exact (Option.some.inj hm).ge
    · exact fun h => h.1
  | cons m ms ih =>
    rw [List.foldl_cons, ih]
    simp only [Option.some.injEq, List.mem_cons]
    cases longest with
    | none => simp [eq_comm]
    | some l =>
      simp only [Option.getD_some, Option.some.injEq]
      constructor
      · rintro ⟨hmem, hle⟩
        have hmax := hle (max l m) (Or.inl rfl)
        refine ⟨?_, fun a ha => ?_⟩
        · rcases hmem with hmem | hmem
          · omega
          · exact Or.inr (Or.inr hmem)
        rcases ha with rfl | rfl | ha
        · omega
        · omega
        · exact hle a (Or.inr ha)
      · rintro ⟨hmem, hle⟩
        have hl := hle l (Or.inl rfl)
        have hm := hle m (Or.inr (Or.inl rfl))
        refine ⟨?_, fun a ha => ?_⟩
        · rcases hmem with hmem | hmem | hmem
          · omega
          · omega
          · exact Or.inr hmem
        rcases ha with rfl | ha
        · omega
        · exact hle a (Or.inr (Or.inr ha))

theorem foldl_max_eq_none {ms : List Nat} :
    ms.foldl (fun longest m => some (max (longest.getD 0) m)) longest = none ↔
      longest = none ∧ ms = [] := by
  induction ms generalizing longest with
  | nil => simp
  | cons m ms ih =>
    rw [List.foldl_cons, ih]
    simp

theorem leadTime_eq_none :
    (aggregateMatchedRules matched).internalSetupLeadTimeMinutes = none ↔
      leadTimes matched = [] := by
  rw [aggregateMatchedRules, foldl_addRule_leadTime, foldl_max_eq_none]
  simp [allowOutcome]

theorem leadTime_eq_some :
    (aggregateMatchedRules matched).internalSetupLeadTimeMinutes = some minutes ↔
      minutes ∈ leadTimes matched ∧ ∀ m ∈ leadTimes matched, m ≤ minutes := by
  rw [aggregateMatchedRules, foldl_addRule_leadTime, foldl_max_eq_some]
  simp [allowOutcome]

theorem mem_denialMessages {message : String} :
    message ∈ (aggregateMatchedRules matched).denialMessages ↔
      ∃ r ∈ matched, message ∈ denialsOf r := by
  rw [aggregateMatchedRules, foldl_addRule_messages.1]
  simp [allowOutcome]

theorem mem_warningMessages {message : String} :
    message ∈ (aggregateMatchedRules matched).warningMessages ↔
      ∃ r ∈ matched, message ∈ warningsOf r := by
  rw [aggregateMatchedRules, foldl_addRule_messages.2]
  simp [allowOutcome]

theorem requiresInternalSetup_iff :
    (aggregateMatchedRules matched).requiresInternalSetup = true ↔
      ∃ r ∈ matched, r.requiresInternalSetup = true := by
  rw [aggregateMatchedRules, foldl_addRule_setup]
  simp [allowOutcome]

theorem strength_le_iff {n : Nat} :
    (aggregateMatchedRules matched).effect.strength ≤ n ↔
      ∀ r ∈ matched, r.effect ≠ .warn → r.effect.strength ≤ n := by
  obtain ⟨hwarn, _, hall, hsome⟩ :=
    @foldl_addRule_strength matched allowOutcome (by decide)
  constructor
  · exact fun h r hr hne => (hall r hr hne).trans h
  · intro h
    rcases hsome with hallow | ⟨r, hr, heq⟩
    · rw [aggregateMatchedRules, hallow]
      exact Nat.zero_le n
    · rw [aggregateMatchedRules, ← heq]
      exact h r hr (heq ▸ hwarn)

/-! ## The outcome -/

theorem noWeaker_of_subset (h : matched ⊆ matched') :
    NoWeaker (aggregateMatchedRules matched) (aggregateMatchedRules matched') where
  effect := strength_le_iff.mpr fun r hr hne => strength_le_iff.mp le_rfl r (h hr) hne
  approverTargets := by
    intro t ht
    obtain ⟨r, hr, heffect, htarget⟩ := mem_approverTargets.mp ht
    exact mem_approverTargets.mpr ⟨r, h hr, heffect, htarget⟩
  denialMessages := by
    intro message hmessage
    obtain ⟨r, hr, hsays⟩ := mem_denialMessages.mp hmessage
    exact mem_denialMessages.mpr ⟨r, h hr, hsays⟩
  warningMessages := by
    intro message hmessage
    obtain ⟨r, hr, hsays⟩ := mem_warningMessages.mp hmessage
    exact mem_warningMessages.mpr ⟨r, h hr, hsays⟩
  requiresInternalSetup := by
    rw [requiresInternalSetup_iff, requiresInternalSetup_iff]
    rintro ⟨r, hr, hsetup⟩
    exact ⟨r, h hr, hsetup⟩
  leadTime := by
    intro minutes hminutes
    have hsub : leadTimes matched ⊆ leadTimes matched' := List.filterMap_subset _ h
    have hmem := hsub (leadTime_eq_some.mp hminutes).1
    cases hlead : (aggregateMatchedRules matched').internalSetupLeadTimeMinutes with
    | none =>
      rw [leadTime_eq_none.mp hlead] at hmem
      cases hmem
    | some minutes' => exact ⟨minutes', rfl, (leadTime_eq_some.mp hlead).2 minutes hmem⟩

theorem mem_extractApproverTargets {cfg : ApprovalConfig} (hcfg : r.approvalConfig = some cfg)
    {target : ApproverTarget} (h : cfg.Names target) :
    (r.id, target) ∈ extractApproverTargets r := by
  unfold extractApproverTargets
  cases h with
  | person htarget hid => simp [hcfg, htarget, hid]
  | role htarget hid => simp [hcfg, htarget, hid]
  | derived htarget hexpr hne => simp [hcfg, htarget, hexpr, nonEmpty, hne]
  | costCenterDefaultApprover htarget => simp [hcfg, htarget]

/-- The outcome is the join of the matched rules exactly when a warning stands beside something
stronger. -/
theorem isJoin_iff :
    IsJoin (· ∈ matched) (aggregateMatchedRules matched) ↔
      ((∃ r ∈ matched, r.effect = .warn) →
        ∃ r ∈ matched, r.effect = .deny ∨ r.effect = .requireApproval) := by
  obtain ⟨hwarn, _, hall, hsome⟩ :=
    @foldl_addRule_strength matched allowOutcome (by decide)
  have hattained : (aggregateMatchedRules matched).effect = .allow ∨
      ∃ r ∈ matched, r.effect = (aggregateMatchedRules matched).effect := hsome
  constructor
  · rintro hjoin ⟨w, hw, heffect⟩
    have hle := hjoin.strongest w hw
    rw [heffect] at hle
    rcases hattained with hallow | ⟨r, hr, heq⟩
    · rw [hallow] at hle
      exact absurd hle (by decide)
    · refine ⟨r, hr, ?_⟩
      change (aggregateMatchedRules matched).effect ≠ .warn at hwarn
      rw [← heq] at hle hwarn
      revert hle hwarn
      cases r.effect <;> decide
  · intro hbeside
    refine ⟨hattained, ?_, ?_, ?_, ?_, requiresInternalSetup_iff, ?_⟩
    · intro r hr
      by_cases heffect : r.effect = .warn
      · obtain ⟨s, hs, hstrong⟩ := hbeside ⟨r, hr, heffect⟩
        have hle : s.effect.strength ≤ (aggregateMatchedRules matched).effect.strength :=
          hall s hs (by rcases hstrong with h | h <;> simp [h])
        refine le_trans ?_ hle
        rcases hstrong with h | h
        · rw [heffect, h]
          decide
        · rw [heffect, h]
          decide
      · exact hall r hr heffect
    · intro r hr heffect cfg hcfg target htarget
      exact mem_approverTargets.mpr ⟨r, hr, heffect, mem_extractApproverTargets hcfg htarget⟩
    · rintro r hr heffect message ⟨hmessage, hne⟩
      refine mem_denialMessages.mpr ⟨r, hr, ?_⟩
      rcases heffect with h | h
      · simp [denialsOf, h, nonEmpty, hmessage, hne]
      · simp [denialsOf, h, nonEmpty, hmessage, hne]
    · rintro r hr heffect message ⟨hmessage, hne⟩
      refine mem_warningMessages.mpr ⟨r, hr, ?_⟩
      simp [warningsOf, heffect, nonEmpty, hmessage, hne]
    · intro minutes
      rw [leadTime_eq_some]
      simp only [mem_leadTimes, IsGreatest, upperBounds, Set.mem_ofPred_eq]

end

/-- The rules of a line have one outcome, which is their join and which no further rule weakens,
exactly when no matched warning is stronger than all the other matched rules. -/
theorem joinLaw_iff (engine : PredicateEngine ε) {rules : List ServiceRuleRow} (line : RuleLine)
    (hid : ∀ a ∈ rules, ∀ b ∈ rules, a.id = b.id → a = b) :
    JoinLaw engine rules line ↔ WarnsBesideStronger engine rules line := by
  have hjoin : ∀ matched, matchWithEngine engine rules line = .ok matched →
      (IsJoin (Matched engine rules line) (aggregateMatchedRules matched) ↔
        WarnsBesideStronger engine rules line) := by
    intro matched hmatched
    have hmem : Matched engine rules line = (· ∈ matched) :=
      funext fun r => propext (mem_of_matchWithEngine hmatched r).symm
    unfold WarnsBesideStronger
    rw [hmem]
    exact isJoin_iff
  constructor
  · intro hlaw
    cases hmatched : matchWithEngine engine rules line with
    | ok matched => exact (hjoin matched hmatched).mp (hlaw.join matched hmatched)
    | error e =>
      -- The engine failed, so no rule is matched.
      rintro ⟨r, ⟨_, _, fires, hfires, _⟩, _⟩
      rw [matchWithEngine_of_ok hfires] at hmatched
      cases hmatched
  · intro hbeside
    refine ⟨?_, fun matched hmatched => (hjoin matched hmatched).mpr hbeside,
      fun _ _ => noWeaker_of_subset⟩
    intro rules' hperm
    rw [matchWithEngine_perm hperm hid]

/-! ## A warning and an override -/

def warnRule : ServiceRuleRow where
  id := 3
  effect := .warn
  denialMessage := some "This is a large order."

def alwaysFires : PredicateEngine Unit := fun _ => .ok fun _ => true

def coffee : RuleLine where
  catalogItemId := "coffee"
  catalogItemCategory := none
  menuId := none

def denyRule : ServiceRuleRow := { warnRule with id := 4, effect := .deny }

/-- Beside a denial the warning is not lost. -/
theorem joinLaw_denyRule : JoinLaw alwaysFires [warnRule, denyRule] coffee := by
  refine (joinLaw_iff alwaysFires coffee (by decide)).mpr fun _ => ⟨denyRule, ⟨?_, ?_, ?_⟩, Or.inl rfl⟩
  · decide
  · decide
  · exact ⟨_, rfl, rfl⟩

/-- A line whose only rule warns has the effect `allow`. -/
theorem warnRule_is_allowed :
    ¬∀ (rules : List ServiceRuleRow), (∀ a ∈ rules, ∀ b ∈ rules, a.id = b.id → a = b) →
      JoinLaw alwaysFires rules coffee := by
  intro hlaw
  have hjoin := (hlaw [warnRule] (by decide)).join [warnRule] (by decide)
  have hle := hjoin.strongest warnRule ⟨by decide, by decide, _, rfl, rfl⟩
  exact absurd hle (by decide)

end Prequest.Orders
