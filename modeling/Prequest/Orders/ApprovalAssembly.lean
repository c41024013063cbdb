import Mathlib.Data.List.Induction
import Mathlib.Data.String.Basic
import Prequest.Lib.Loop
import Prequest.Orders.ApprovalMerge
import Prequest.Orders.PlanOrder

/-!
# Approvals of a set of outcomes

Approvals are routed twice over: `assemble` writes rows, or adds to those that are
pending, and `assemblePlan` plans the rows of a booking that is yet to be made. Both group
what the rules ask by approver. Only the plan drops the repetitions of a rule, and of the
messages of a line only the first one is kept.

* `ruleOfTwoLines_repeated`: one rule that two lines match.
-/

namespace Prequest.Orders

open Prequest.Approval Prequest.Lib

/-! ## The rows that are written -/

structure AssembleApprovalsArgs where
  targetEntityType : TargetEntityType
  targetEntityId : Nat
  perLineOutcomes : List LineOutcome
  bundleOutcome : Option LineOutcome := none
  costCenterId : Option Nat
  deriving DecidableEq, Repr

def AssembleApprovalsArgs.flat (args : AssembleApprovalsArgs) : List LineOutcome :=
  args.perLineOutcomes ++ args.bundleOutcome.toList

structure AssembledApproval where
  targetEntityType : TargetEntityType
  targetEntityId : Nat
  approverPersonId : Nat
  scopeBreakdown : PlanScopeBreakdown
  status : ApprovalStatus := .pending
  wasExisting : Bool
  deriving DecidableEq, Repr

/-- What an attempt finds in `approvals` for a person, other writers included. -/
structure ApprovalsSeen where
  /-- The pending row of the person for the target. -/
  pending : Nat → Nat → Option PlanScopeBreakdown
  /-- The insert violates `uq_approvals_pending_dedup`. -/
  collides : Nat → Nat → Bool

/-- `AppErrors.server`. -/
structure ServerError where
  code : String
  detail : String
  deriving DecidableEq, Repr

def retryExhausted (targetEntityId approverPersonId : Nat) : ServerError where
  code := "orders.approval_routing_failed"
  detail := "approval-routing: dedup upsert retry exhausted for (target=" ++
    toString targetEntityId ++ ", approver=" ++ toString approverPersonId ++ ")"

/-- `upsertWithRetry`, with the attempts that are left. -/
def upsertWithRetry (seen : ApprovalsSeen) (args : AssembleApprovalsArgs) (personId : Nat)
    (entry : PlanScopeBreakdown) : Nat → Nat → Except ServerError AssembledApproval
  | _, 0 => .error (retryExhausted args.targetEntityId personId)
  | attempt, left + 1 =>
      match seen.pending attempt personId with
      | some existing =>
          .ok { targetEntityType := args.targetEntityType
                targetEntityId := args.targetEntityId
                approverPersonId := personId
                scopeBreakdown := mergeBreakdown existing entry
                wasExisting := true }
      | none =>
          if seen.collides attempt personId then
            upsertWithRetry seen args personId entry (attempt + 1) left
          else
            .ok { targetEntityType := args.targetEntityType
                  targetEntityId := args.targetEntityId
                  approverPersonId := personId
                  scopeBreakdown := entry
                  wasExisting := false }

def maxAttempts : Nat := 3

/-- The entry of a person after one more tuple, as `assemble` has it: every tuple is a reason. -/
def pushTuple (entry : PlanScopeBreakdown) (t : ApproverTuple) : PlanScopeBreakdown where
  toApprovalScope := mergeScopeInto entry.toApprovalScope t.scope
  reasons := entry.reasons ++ [{ ruleId := t.ruleId, denialMessage := t.denialMessage }]

def groupOf (tuples : List ApproverTuple) (personId : Nat) : PlanScopeBreakdown :=
  (tuples.filter fun t => t.approverPersonId == personId).foldl pushTuple {}

section

variable (dir : ApproverDirectory) (args : AssembleApprovalsArgs)

def tuplesOf : List ApproverTuple := collectApproverTuples dir args.costCenterId args.flat

/-- The persons who are asked, in the order in which they come up. -/
def personsAsked : List Nat := ((tuplesOf dir args).map ApproverTuple.approverPersonId).eraseDups

/-- `ApprovalRoutingService.assemble`. -/
def assemble (seen : ApprovalsSeen) : Except ServerError (List AssembledApproval) :=
  (personsAsked dir args).mapM fun personId =>
    upsertWithRetry seen args personId (groupOf (tuplesOf dir args) personId) 0 maxAttempts

/-- `ApprovalRoutingService.assemblePlan`. -/
def plannedRows (idempotencyKey : String) : List AttachPlanApproval :=
  assemblePlan dir args.costCenterId idempotencyKey args.targetEntityId args.flat

def rulesAsking (costCenterId : Option Nat) (personId : Nat) (item : LineOutcome) : List Nat :=
  item.outcome.approverTargets.flatMap fun target =>
    List.replicate ((resolveApproverTarget dir costCenterId target.2).count personId) target.1

def LineOutcome.Asks (costCenterId : Option Nat) (personId : Nat) (item : LineOutcome) : Prop :=
  ∃ target ∈ item.outcome.approverTargets,
    personId ∈ resolveApproverTarget dir costCenterId target.2

end

/-- The pending row to which the upsert of a person adds in the end, if it comes to an end. -/
def landsOn (seen : ApprovalsSeen) (personId : Nat) :
    Nat → Nat → Option (Option PlanScopeBreakdown)
  | _, 0 => none
  | attempt, left + 1 =>
      match seen.pending attempt personId with
      | some existing => some (some existing)
      | none =>
          if seen.collides attempt personId then landsOn seen personId (attempt + 1) left
          else some none

def addedTo : Option PlanScopeBreakdown → PlanScopeBreakdown → PlanScopeBreakdown
  | none, entry => entry
  | some existing, entry => mergeBreakdown existing entry

/-! ## The law -/

/-- The same outcome, whose rules, messages and targets come in another order. -/
structure OutcomeReordered (item item' : LineOutcome) : Prop where
  rules : item.outcome.matchedRuleIds.Perm item'.outcome.matchedRuleIds
  messages : item.outcome.denialMessages.Perm item'.outcome.denialMessages
  targets : item.outcome.approverTargets.Perm item'.outcome.approverTargets
  scope : item'.scope = item.scope

/-- The same outcomes in another order. -/
structure ArgsReordered (args args' : AssembleApprovalsArgs) : Prop where
  lines : ∃ lines, args.perLineOutcomes.Perm lines ∧
    List.Forall₂ OutcomeReordered lines args'.perLineOutcomes
  bundle : Option.Rel OutcomeReordered args.bundleOutcome args'.bundleOutcome
  target : args'.targetEntityId = args.targetEntityId
  costCenter : args'.costCenterId = args.costCenterId

/-- The rows that are written and those that are planned agree, but for the order of ids and reasons,
cover what the rules ask, one for each approver, and are planned alike in every order. -/
structure RoutingLaw (dir : ApproverDirectory) (args : AssembleApprovalsArgs)
    (idempotencyKey : String) (seen : ApprovalsSeen) (a b c : PlanScopeBreakdown) : Prop where
  approvers : ∀ rows, assemble dir args seen = .ok rows → ∀ p,
    (∃ row ∈ rows, row.approverPersonId = p) ↔
      ∃ planned ∈ plannedRows dir args idempotencyKey, planned.approverPersonId = some p
  breakdown : ∀ rows, assemble dir args seen = .ok rows → ∀ row ∈ rows,
    ∀ planned ∈ plannedRows dir args idempotencyKey,
      planned.approverPersonId = some row.approverPersonId →
        ∃ pending, landsOn seen row.approverPersonId 0 maxAttempts = some pending ∧
          SameBreakdown row.scopeBreakdown (addedTo pending planned.scopeBreakdown)
  covers : ∀ p k x,
    (∃ planned ∈ plannedRows dir args idempotencyKey,
        planned.approverPersonId = some p ∧ x ∈ planned.scopeBreakdown.ids k) ↔
      ∃ item ∈ args.flat, item.Asks dir args.costCenterId p ∧ x ∈ item.scope.ids k
  once : ((plannedRows dir args idempotencyKey).map AttachPlanApproval.approverPersonId).Nodup ∧
    ∀ rows, assemble dir args seen = .ok rows →
      (rows.map AssembledApproval.approverPersonId).Nodup
  stable : ∀ dir' args', SamePersons dir dir' → ArgsReordered args args' →
    plannedRows dir' args' idempotencyKey = plannedRows dir args idempotencyKey
  merges : MergeLaw a b c

/-- The messages that a line can give a rule, for its messages come in any order. -/
def LineOutcome.possibleMessages (item : LineOutcome) (ruleId : Nat) : List (Option String) :=
  if item.outcome.matchedRuleIds.contains ruleId && !item.outcome.denialMessages.isEmpty then
    item.outcome.denialMessages.map some
  else [none]

section

variable (dir : ApproverDirectory) (args : AssembleApprovalsArgs)

/-- The outcomes that can say why a rule asks a person: those of the lines, or else the bundle's. -/
def speakers (personId ruleId : Nat) : List LineOutcome :=
  let asks := fun item => (rulesAsking dir args.costCenterId personId item).contains ruleId
  if args.perLineOutcomes.any asks then args.perLineOutcomes.filter asks
  else args.bundleOutcome.toList.filter asks

/-- No rule asks a person twice whose row is new, the lines that ask a person list their entities in
agreeing orders, they can give a rule only one message, and the breakdowns merge cleanly. -/
structure RoutedCleanly (seen : ApprovalsSeen) (a b : PlanScopeBreakdown) : Prop where
  oneReason : (∀ p, (∃ item ∈ args.flat, item.Asks dir args.costCenterId p) →
      landsOn seen p 0 maxAttempts ≠ none) →
    ∀ p, landsOn seen p 0 maxAttempts = some none →
      (args.flat.flatMap (rulesAsking dir args.costCenterId p)).Nodup
  agreeing : ∀ p k, ∀ item ∈ args.perLineOutcomes, ∀ item' ∈ args.perLineOutcomes,
    item.Asks dir args.costCenterId p → item'.Asks dir args.costCenterId p → ∀ x y, x ≠ y →
      Leads x y (item.scope.ids k) → ¬Leads y x (item'.scope.ids k)
  oneMessage : ∀ p ruleId, ∀ item ∈ speakers dir args p ruleId,
    ∀ item' ∈ speakers dir args p ruleId, ∀ m ∈ item.possibleMessages ruleId,
      ∀ m' ∈ item'.possibleMessages ruleId, m = m'
  merges : MergesCleanly a b

end

/-! ## Who is asked -/

def ApproverTuple.reason (t : ApproverTuple) : ScopeReason :=
  { ruleId := t.ruleId, denialMessage := t.denialMessage }

def askedOf (dir : ApproverDirectory) (args : AssembleApprovalsArgs) (personId : Nat) :
    List ApproverTuple :=
  (tuplesOf dir args).filter fun t => t.approverPersonId == personId

variable {costCenterId : Option Nat} {k : IdKind}

section

variable {dir : ApproverDirectory} {args : AssembleApprovalsArgs} {p ruleId : Nat}

theorem mem_rulesAsking {item : LineOutcome} :
    ruleId ∈ rulesAsking dir costCenterId p item ↔
      ∃ target ∈ item.outcome.approverTargets, target.1 = ruleId ∧
        p ∈ resolveApproverTarget dir costCenterId target.2 := by
  simp only [rulesAsking, List.mem_flatMap, List.mem_replicate, ne_eq, List.count_eq_zero, not_not]
  constructor
  · rintro ⟨target, htarget, hp, rfl⟩
    exact ⟨target, htarget, rfl, hp⟩
  · rintro ⟨target, htarget, rfl, hp⟩
    exact ⟨target, htarget, hp, rfl⟩

theorem asks_iff {item : LineOutcome} :
    item.Asks dir costCenterId p ↔ ∃ ruleId, ruleId ∈ rulesAsking dir costCenterId p item := by
  simp only [mem_rulesAsking]
  constructor
  · rintro ⟨target, htarget, hp⟩
    exact ⟨target.1, target, htarget, rfl, hp⟩
  · rintro ⟨_, target, htarget, _, hp⟩
    exact ⟨target, htarget, hp⟩

theorem askedOf_eq (dir : ApproverDirectory) (args : AssembleApprovalsArgs) (p : Nat) :
    askedOf dir args p = args.flat.flatMap fun item =>
      (rulesAsking dir args.costCenterId p item).map fun ruleId =>
        { approverPersonId := p, ruleId := ruleId
          denialMessage := messageOfRule item.outcome ruleId, scope := item.scope } := by
  unfold askedOf tuplesOf collectApproverTuples rulesAsking
  rw [List.filter_flatMap]
  refine List.flatMap_congr fun item _ => ?_
  rw [List.filter_flatMap, List.map_flatMap]
  refine List.flatMap_congr fun target _ => ?_
  rw [filter_tuples _ fun _ => rfl, List.map_replicate]

theorem mem_personsAsked :
    p ∈ personsAsked dir args ↔ ∃ item ∈ args.flat, item.Asks dir args.costCenterId p := by
  unfold personsAsked tuplesOf
  rw [List.mem_eraseDups, List.mem_map]
  constructor
  · rintro ⟨t, ht, rfl⟩
    obtain ⟨item, hitem, target, htarget, q, hq, rfl⟩ := mem_collectApproverTuples.mp ht
    exact ⟨item, hitem, target, htarget, hq⟩
  · rintro ⟨item, hitem, target, htarget, hp⟩
    exact ⟨_, mem_collectApproverTuples.mpr ⟨item, hitem, target, htarget, p, hp, rfl⟩, rfl⟩

/-! ## What a row says -/

theorem foldl_mergeIds {α : Type} [DecidableEq α] (l : List α) (ls : List (List α)) :
    ls.foldl mergeIds l.eraseDups = (l ++ ls.flatten).eraseDups := by
  induction ls generalizing l with
  | nil => rw [List.foldl_nil, List.flatten_nil, List.append_nil]
  | cons l' ls ih =>
    have hmerge : mergeIds l.eraseDups l' = (l ++ l').eraseDups := by
      cases l' with
      | nil => rw [List.append_nil]; rfl
      | cons a l' =>
        show (l.eraseDups ++ a :: l').eraseDups = _
        rw [← eraseDups_append_eraseDups, eraseDups_eq_self (nodup_eraseDups l),
          eraseDups_append_eraseDups]
    rw [List.foldl_cons, hmerge, ih, List.flatten_cons, List.append_assoc]

section

variable (entry : PlanScopeBreakdown) (ts : List ApproverTuple)

theorem ids_foldl_addTuple (k : IdKind) : (ts.foldl addTuple entry).ids k =
      (ts.map fun t => t.scope.ids k).foldl mergeIds (entry.ids k) := by
  induction ts generalizing entry with
  | nil => rfl
  | cons t ts ih =>
    rw [List.foldl_cons, ih, List.map_cons, List.foldl_cons]
    exact congrArg (fun ids => List.foldl mergeIds ids _) (ids_mergeScopeInto _ t.scope k)

theorem foldl_pushTuple : ts.foldl pushTuple entry =
      { ts.foldl addTuple entry with reasons := entry.reasons ++ ts.map ApproverTuple.reason } := by
  induction ts using List.reverseRecOn with
  | nil => rw [List.map_nil, List.append_nil]; rfl
  | append_singleton ts t ih =>
    rw [List.foldl_append, ih, List.foldl_append, List.map_append, ← List.append_assoc]
    rfl

theorem reasons_foldl_addTuple : (ts.foldl addTuple entry).reasons =
      mergeByKey ScopeReason.ruleId entry.reasons (ts.map ApproverTuple.reason) := by
  induction ts generalizing entry with
  | nil => rfl
  | cons t ts ih =>
    rw [List.foldl_cons, ih]
    rfl

end

theorem ids_entryOf (k : IdKind) : (entryOf (tuplesOf dir args) p).ids k =
    ((askedOf dir args p).map fun t => t.scope.ids k).flatten.eraseDups := by
  show ((askedOf dir args p).foldl addTuple {}).ids k = _
  rw [ids_foldl_addTuple]
  have hnone : ({} : PlanScopeBreakdown).ids k = ([] : List k.Id).eraseDups := by cases k <;> rfl
  rw [hnone, foldl_mergeIds, List.nil_append]

theorem reasons_entryOf : (entryOf (tuplesOf dir args) p).reasons =
    (mergeByKey ScopeReason.ruleId [] ((askedOf dir args p).map ApproverTuple.reason)).insertionSort
      beforeReason := by
  show (((askedOf dir args p).foldl addTuple {}).reasons).insertionSort beforeReason = _
  rw [reasons_foldl_addTuple]

theorem groupOf_eq : groupOf (tuplesOf dir args) p =
    { entryOf (tuplesOf dir args) p with
      reasons := (askedOf dir args p).map ApproverTuple.reason } := by
  show (askedOf dir args p).foldl pushTuple {} = _
  rw [foldl_pushTuple]
  rfl

theorem mem_ids_entryOf {x : k.Id} :
    x ∈ (entryOf (tuplesOf dir args) p).ids k ↔
      ∃ item ∈ args.flat, item.Asks dir args.costCenterId p ∧ x ∈ item.scope.ids k := by
  rw [ids_entryOf, List.mem_eraseDups, List.mem_flatten, askedOf_eq]
  simp only [List.mem_map, List.mem_flatMap, asks_iff]
  constructor
  · rintro ⟨_, ⟨_, ⟨item, hitem, ruleId, hrule, rfl⟩, rfl⟩, hx⟩
    exact ⟨item, hitem, ⟨ruleId, hrule⟩, hx⟩
  · rintro ⟨item, hitem, ⟨ruleId, hrule⟩, hx⟩
    exact ⟨_, ⟨_, ⟨item, hitem, ruleId, hrule, rfl⟩, rfl⟩, hx⟩

end

/-! ## Both ways -/

variable {rows : List AssembledApproval} {item item' : LineOutcome}

section

variable {dir : ApproverDirectory} {args : AssembleApprovalsArgs} {idempotencyKey : String}
  {seen : ApprovalsSeen} {p : Nat}

def assembledRow (args : AssembleApprovalsArgs) (personId : Nat)
    (pending : Option PlanScopeBreakdown) (entry : PlanScopeBreakdown) : AssembledApproval where
  targetEntityType := args.targetEntityType
  targetEntityId := args.targetEntityId
  approverPersonId := personId
  scopeBreakdown := addedTo pending entry
  wasExisting := pending.isSome

theorem upsertWithRetry_eq_ok {entry : PlanScopeBreakdown} {attempt left : Nat}
    {row : AssembledApproval} :
    upsertWithRetry seen args p entry attempt left = .ok row ↔
      ∃ pending, landsOn seen p attempt left = some pending ∧
        row = assembledRow args p pending entry := by
  induction left generalizing attempt with
  | zero => exact iff_of_false nofun nofun
  | succ left ih =>
    unfold upsertWithRetry landsOn
    cases seen.pending attempt p with
    | some existing => simp [assembledRow, addedTo, eq_comm]
    | none =>
      cases seen.collides attempt p with
      | true => exact ih
      | false => simp [assembledRow, addedTo, eq_comm]

theorem assemble_eq_ok :
    assemble dir args seen = .ok rows ↔
      List.Forall₂ (fun p row => ∃ pending, landsOn seen p 0 maxAttempts = some pending ∧
        row = assembledRow args p pending (groupOf (tuplesOf dir args) p))
        (personsAsked dir args) rows := by
  unfold assemble
  rw [mapM_eq_ok]
  simp only [upsertWithRetry_eq_ok]

theorem approverPersonIds_assemble (h : assemble dir args seen = .ok rows) :
    rows.map AssembledApproval.approverPersonId = personsAsked dir args := by
  have hsame : List.Forall₂ (fun p row => p = row.approverPersonId) (personsAsked dir args) rows := by
    refine (assemble_eq_ok.mp h).imp fun p row => ?_
    rintro ⟨pending, _, rfl⟩
    rfl
  rw [← List.forall₂_map_right_iff, List.forall₂_eq_eq_eq] at hsame
  exact hsame.symm

theorem plannedRows_eq (dir : ApproverDirectory) (args : AssembleApprovalsArgs)
    (idempotencyKey : String) :
    plannedRows dir args idempotencyKey = ((personsAsked dir args).insertionSort (· ≤ ·)).map
      (approvalRowOf idempotencyKey args.targetEntityId (tuplesOf dir args)) := rfl

theorem approverPersonIds_plannedRows :
    (plannedRows dir args idempotencyKey).map AttachPlanApproval.approverPersonId =
      ((personsAsked dir args).insertionSort (· ≤ ·)).map some := by
  rw [plannedRows_eq, List.map_map]
  rfl

theorem mem_plannedRows {planned : AttachPlanApproval} :
    planned ∈ plannedRows dir args idempotencyKey ↔ ∃ p ∈ personsAsked dir args,
      planned = approvalRowOf idempotencyKey args.targetEntityId (tuplesOf dir args) p := by
  rw [plannedRows_eq, List.mem_map]
  simp only [List.mem_insertionSort, eq_comm]

theorem nodup_plannedRows :
    ((plannedRows dir args idempotencyKey).map AttachPlanApproval.approverPersonId).Nodup := by
  rw [approverPersonIds_plannedRows, List.nodup_map_iff (Option.some_injective _),
    (List.perm_insertionSort _ _).nodup_iff]
  exact nodup_eraseDups _

theorem ruleIds_askedOf : ((askedOf dir args p).map ApproverTuple.reason).map ScopeReason.ruleId =
    args.flat.flatMap (rulesAsking dir args.costCenterId p) := by
  rw [askedOf_eq, List.map_map, List.map_flatMap]
  refine List.flatMap_congr fun item _ => ?_
  rw [List.map_map]
  exact List.map_id' _

theorem sameBreakdown_new_iff :
    SameBreakdown (groupOf (tuplesOf dir args) p) (entryOf (tuplesOf dir args) p) ↔
      (args.flat.flatMap (rulesAsking dir args.costCenterId p)).Nodup := by
  have hsort := List.perm_insertionSort beforeReason
    (mergeByKey ScopeReason.ruleId [] ((askedOf dir args p).map ApproverTuple.reason))
  rw [← ruleIds_askedOf, ← mergeByKey_nil_perm_iff ScopeReason.ruleId]
  constructor
  · intro h
    have hreasons := h.reasons
    rw [groupOf_eq, reasons_entryOf] at hreasons
    exact (hreasons.trans hsort).symm
  · intro h
    refine ⟨fun k => ?_, ?_⟩
    · rw [groupOf_eq]
    · rw [groupOf_eq, reasons_entryOf]
      exact (hsort.trans h).symm

theorem sameBreakdown_existing (existing : PlanScopeBreakdown) :
    SameBreakdown (mergeBreakdown existing (groupOf (tuplesOf dir args) p))
      (mergeBreakdown existing (entryOf (tuplesOf dir args) p)) := by
  rw [groupOf_eq]
  refine ⟨fun k => List.Perm.refl _, ?_⟩
  refine mergeByKey_congr ScopeReason.ruleId existing.reasons fun ruleId => ?_
  rw [reasons_entryOf]
  exact (head?_ofKey_of_perm ScopeReason.ruleId (List.perm_insertionSort beforeReason _) ruleId).symm

end

/-! ## Another order -/

theorem beforeReason_total : Std.Total beforeReason where
  total a b := by
    rcases Nat.lt_trichotomy a.ruleId b.ruleId with hlt | heq | hgt
    · exact .inl (.inl hlt)
    · rcases le_total (a.denialMessage.getD "") (b.denialMessage.getD "") with hle | hle
      · exact .inl (.inr ⟨heq, hle⟩)
      · exact .inr (.inr ⟨heq.symm, hle⟩)
    · exact .inr (.inl hgt)

theorem beforeReason_trans : IsTrans ScopeReason beforeReason where
  trans a b c := by
    rintro (hab | ⟨hab, hle⟩) (hbc | ⟨hbc, hle'⟩)
    · exact .inl (hab.trans hbc)
    · exact .inl (hbc ▸ hab)
    · exact .inl (hab ▸ hbc)
    · exact .inr ⟨hab.trans hbc, hle.trans hle'⟩

theorem sortedReasons_eq {rs rs' : List ScopeReason} (hperm : rs.Perm rs')
    (hrules : (rs.map ScopeReason.ruleId).Nodup) :
    rs.insertionSort beforeReason = rs'.insertionSort beforeReason := by
  have := beforeReason_total
  have := beforeReason_trans
  refine insertionSort_eq_of_perm hperm fun a ha b hb hab hba => ?_
  refine List.inj_on_of_nodup_map hrules ha hb ?_
  rcases hab with hab | ⟨hab, _⟩
  · rcases hba with hba | ⟨hba, _⟩
    · exact absurd hba (Nat.lt_asymm hab)
    · exact hba.symm
  · exact hab

theorem OutcomeReordered.refl (item : LineOutcome) : OutcomeReordered item item :=
  ⟨List.Perm.refl _, List.Perm.refl _, List.Perm.refl _, rfl⟩

theorem SamePersons.refl (dir : ApproverDirectory) : SamePersons dir dir :=
  ⟨fun _ => List.Perm.refl _, rfl⟩

theorem SamePersons.symm {dir dir' : ApproverDirectory} (h : SamePersons dir dir') :
    SamePersons dir' dir :=
  ⟨fun roleId => (h.persons roleId).symm, h.defaults.symm⟩

theorem OutcomeReordered.symm (h : OutcomeReordered item item') : OutcomeReordered item' item :=
  ⟨h.rules.symm, h.messages.symm, h.targets.symm, h.scope.symm⟩

section

variable {dir dir' : ApproverDirectory} {args args' : AssembleApprovalsArgs} {p ruleId : Nat}
  {item item' : LineOutcome}

theorem OutcomeReordered.rulesAsking (h : OutcomeReordered item item')
    (hdir : SamePersons dir dir') (costCenterId : Option Nat) (p : Nat) :
    (Orders.rulesAsking dir costCenterId p item).Perm
      (Orders.rulesAsking dir' costCenterId p item') := by
  unfold Orders.rulesAsking
  refine (h.targets.flatMap_right _).trans ?_
  refine List.Perm.of_eq (List.flatMap_congr fun target _ => ?_)
  rw [(hdir.resolve costCenterId target.2).count_eq]

theorem OutcomeReordered.asks_iff (h : OutcomeReordered item item') (hdir : SamePersons dir dir')
    (costCenterId : Option Nat) (p : Nat) :
    item'.Asks dir' costCenterId p ↔ item.Asks dir costCenterId p := by
  simp only [Orders.asks_iff, (h.rulesAsking hdir costCenterId p).mem_iff]

theorem ArgsReordered.symm (h : ArgsReordered args args') : ArgsReordered args' args where
  lines := by
    obtain ⟨lines, hperm, hlines⟩ := h.lines
    obtain ⟨lines', hlines', hperm'⟩ := List.perm_comp_forall₂ hperm hlines
    exact ⟨lines', hperm'.symm, hlines'.flip.imp fun _ _ => OutcomeReordered.symm⟩
  bundle := by
    have hbundle := h.bundle
    generalize args.bundleOutcome = bundle at hbundle ⊢
    generalize args'.bundleOutcome = bundle' at hbundle ⊢
    cases hbundle with
    | none => exact .none
    | some hsame => exact .some hsame.symm
  target := h.target.symm
  costCenter := h.costCenter.symm

theorem ArgsReordered.line (h : ArgsReordered args args') (hitem : item ∈ args.perLineOutcomes) :
    ∃ item' ∈ args'.perLineOutcomes, OutcomeReordered item item' := by
  obtain ⟨lines, hperm, hlines⟩ := h.lines
  exact forall₂_exists_right hlines (hperm.mem_iff.mp hitem)

theorem ArgsReordered.bundle_to (h : ArgsReordered args args')
    (hitem : item ∈ args.bundleOutcome.toList) :
    ∃ item' ∈ args'.bundleOutcome.toList, OutcomeReordered item item' := by
  have hbundle := h.bundle
  rw [Option.mem_toList] at hitem
  rw [hitem] at hbundle
  cases hnew : args'.bundleOutcome with
  | none =>
    rw [hnew] at hbundle
    cases hbundle
  | some item' =>
    rw [hnew] at hbundle
    cases hbundle with
    | some hitem => exact ⟨item', List.mem_singleton_self item', hitem⟩

theorem ArgsReordered.mem_personsAsked_of (h : ArgsReordered args args') (hdir : SamePersons dir dir')
    (hp : p ∈ personsAsked dir args) : p ∈ personsAsked dir' args' := by
  obtain ⟨item, hitem, hasks⟩ := Orders.mem_personsAsked.mp hp
  rw [Orders.mem_personsAsked, h.costCenter]
  rcases List.mem_append.mp hitem with hline | hbundle
  · obtain ⟨item', hitem', hsame⟩ := h.line hline
    exact ⟨item', List.mem_append_left _ hitem', (hsame.asks_iff hdir _ p).mpr hasks⟩
  · obtain ⟨item', hitem', hsame⟩ := h.bundle_to hbundle
    exact ⟨item', List.mem_append_right _ hitem', (hsame.asks_iff hdir _ p).mpr hasks⟩

theorem ArgsReordered.mem_personsAsked (h : ArgsReordered args args') (hdir : SamePersons dir dir') :
    p ∈ personsAsked dir' args' ↔ p ∈ personsAsked dir args :=
  ⟨h.symm.mem_personsAsked_of hdir.symm, h.mem_personsAsked_of hdir⟩

/-! ### The entities -/

def scopesAsking (dir : ApproverDirectory) (costCenterId : Option Nat) (p : Nat) (k : IdKind)
    (items : List LineOutcome) : List (List k.Id) :=
  items.flatMap fun item => (rulesAsking dir costCenterId p item).map fun _ => item.scope.ids k

theorem ids_entryOf_eq (k : IdKind) : (entryOf (tuplesOf dir args) p).ids k =
    ((scopesAsking dir args.costCenterId p k args.perLineOutcomes).flatten ++
      (scopesAsking dir args.costCenterId p k args.bundleOutcome.toList).flatten).eraseDups := by
  rw [ids_entryOf, askedOf_eq, List.map_flatMap, ← List.flatten_append]
  unfold scopesAsking AssembleApprovalsArgs.flat
  rw [List.flatMap_append]
  simp only [List.map_map, Function.comp_def]

theorem mem_scopesAsking {items : List LineOutcome}
    {l : List k.Id} : l ∈ scopesAsking dir costCenterId p k items ↔
      ∃ item ∈ items, item.Asks dir costCenterId p ∧ l = item.scope.ids k := by
  unfold scopesAsking
  simp only [List.mem_flatMap, List.mem_map, asks_iff]
  constructor
  · rintro ⟨item, hitem, ruleId, hrule, rfl⟩
    exact ⟨item, hitem, ⟨ruleId, hrule⟩, rfl⟩
  · rintro ⟨item, hitem, ⟨ruleId, hrule⟩, rfl⟩
    exact ⟨item, hitem, ruleId, hrule, rfl⟩

theorem scopesAsking_eq (hdir : SamePersons dir dir') (costCenterId : Option Nat) (k : IdKind)
    {items items' : List LineOutcome}
    (hof : ∀ item' ∈ items', ∃ item ∈ items, OutcomeReordered item' item)
    (hto : ∀ item ∈ items, ∃ item' ∈ items', OutcomeReordered item item')
    (hagree : ∀ item ∈ items, ∀ item' ∈ items, item.Asks dir costCenterId p →
      item'.Asks dir costCenterId p → ∀ x y, x ≠ y → Leads x y (item.scope.ids k) →
        ¬Leads y x (item'.scope.ids k)) :
    (scopesAsking dir' costCenterId p k items').flatten.eraseDups =
      (scopesAsking dir costCenterId p k items).flatten.eraseDups := by
  refine (flatten_eraseDups_eq ?_ fun l => ?_).symm
  · intro l hl l' hl' x y hne hleads
    obtain ⟨item, hitem, hasks, rfl⟩ := mem_scopesAsking.mp hl
    obtain ⟨item', hitem', hasks', rfl⟩ := mem_scopesAsking.mp hl'
    exact hagree item hitem item' hitem' hasks hasks' x y hne hleads
  · rw [mem_scopesAsking, mem_scopesAsking]
    constructor
    · rintro ⟨item, hitem, hasks, rfl⟩
      obtain ⟨item', hitem', hsame⟩ := hto item hitem
      exact ⟨item', hitem', (hsame.asks_iff hdir costCenterId p).mpr hasks, by rw [hsame.scope]⟩
    · rintro ⟨item', hitem', hasks, rfl⟩
      obtain ⟨item, hitem, hsame⟩ := hof item' hitem'
      exact ⟨item, hitem, (hsame.asks_iff hdir.symm costCenterId p).mpr hasks, by rw [hsame.scope]⟩

theorem ArgsReordered.ids_entryOf (h : ArgsReordered args args') (hdir : SamePersons dir dir')
    (k : IdKind)
    (hagree : ∀ item ∈ args.perLineOutcomes, ∀ item' ∈ args.perLineOutcomes,
      item.Asks dir args.costCenterId p → item'.Asks dir args.costCenterId p → ∀ x y, x ≠ y →
        Leads x y (item.scope.ids k) → ¬Leads y x (item'.scope.ids k)) :
    (entryOf (tuplesOf dir' args') p).ids k = (entryOf (tuplesOf dir args) p).ids k := by
  have hlines := scopesAsking_eq hdir args.costCenterId k (fun _ => h.symm.line)
    (fun _ => h.line) hagree
  have hbundle :
      (scopesAsking dir' args.costCenterId p k args'.bundleOutcome.toList).flatten.eraseDups =
        (scopesAsking dir args.costCenterId p k args.bundleOutcome.toList).flatten.eraseDups := by
    refine scopesAsking_eq hdir args.costCenterId k (fun _ => h.symm.bundle_to)
      (fun _ => h.bundle_to) fun item hitem item' hitem' _ _ x y hne hleads => ?_
    rw [Option.mem_toList] at hitem hitem'
    obtain rfl := Option.some.inj (hitem.symm.trans hitem')
    exact hleads.asymm hne
  rw [ids_entryOf_eq, ids_entryOf_eq, h.costCenter, ← eraseDups_append_eraseDups, hlines, hbundle,
    eraseDups_append_eraseDups]

/-! ### The reasons -/

theorem mem_speakers :
    item ∈ speakers dir args p ruleId ↔
      ruleId ∈ rulesAsking dir args.costCenterId p item ∧
        (item ∈ args.perLineOutcomes ∨ item ∈ args.bundleOutcome.toList ∧
          ∀ line ∈ args.perLineOutcomes, ruleId ∉ rulesAsking dir args.costCenterId p line) := by
  unfold speakers
  simp only
  split
  · next hany =>
    obtain ⟨line, hline, hasks⟩ := List.any_eq_true.mp hany
    rw [List.mem_filter, List.contains_iff_mem, and_comm]
    refine and_congr_right fun _ => (or_iff_left ?_).symm
    exact fun hbundle => hbundle.2 line hline (List.contains_iff_mem.mp hasks)
  · next hany =>
    have hnone : ∀ line ∈ args.perLineOutcomes, ruleId ∉ rulesAsking dir args.costCenterId p line := by
      intro line hline hasks
      exact hany (List.any_eq_true.mpr ⟨line, hline, List.contains_iff_mem.mpr hasks⟩)
    rw [List.mem_filter, List.contains_iff_mem, and_comm]
    refine and_congr_right fun hasks => ?_
    rw [and_iff_left hnone, or_iff_right fun hline => hnone item hline hasks]

theorem head?_speakers : (speakers dir args p ruleId).head? = args.flat.find? fun item =>
    (rulesAsking dir args.costCenterId p item).contains ruleId := by
  unfold speakers AssembleApprovalsArgs.flat
  simp only
  rw [List.find?_append]
  split
  · next hany =>
    rw [List.head?_filter, Option.or_of_isSome]
    rw [List.find?_isSome]
    exact List.any_eq_true.mp hany
  · next hany =>
    rw [List.head?_filter, Option.or_of_isNone]
    rw [Option.isNone_iff_eq_none, List.find?_eq_none]
    exact fun line hline hasks => hany (List.any_eq_true.mpr ⟨line, hline, hasks⟩)

theorem find?_reasons (item : LineOutcome) (rules : List Nat) :
    (rules.map fun rule => (⟨rule, messageOfRule item.outcome rule⟩ : ScopeReason)).find?
        (fun r => r.ruleId == ruleId) =
      if rules.contains ruleId then some ⟨ruleId, messageOfRule item.outcome ruleId⟩ else none := by
  induction rules with
  | nil => rfl
  | cons rule rules ih =>
    rw [List.map_cons, List.find?_cons, ih, List.contains_cons]
    by_cases heq : rule = ruleId
    · subst heq
      simp
    · have hne : (rule == ruleId) = false := beq_eq_false_iff_ne.mpr heq
      have hne' : (ruleId == rule) = false := beq_eq_false_iff_ne.mpr (Ne.symm heq)
      simp only [hne, hne', Bool.false_or]

theorem head?_reasons : (ofKey ScopeReason.ruleId ruleId
      ((askedOf dir args p).map ApproverTuple.reason)).head? =
    (speakers dir args p ruleId).head?.map fun item =>
      ⟨ruleId, messageOfRule item.outcome ruleId⟩ := by
  rw [head?_speakers, askedOf_eq, List.map_flatMap, ofKey, List.head?_filter, List.find?_flatMap]
  simp only [List.map_map, Function.comp_def, ApproverTuple.reason, find?_reasons]
  generalize args.flat = items
  induction items with
  | nil => rfl
  | cons item items ih =>
    rw [List.findSome?_cons, List.find?_cons, ih]
    cases (rulesAsking dir args.costCenterId p item).contains ruleId <;> rfl

theorem head?_entryOf :
    (ofKey ScopeReason.ruleId ruleId (entryOf (tuplesOf dir args) p).reasons).head? =
      (ofKey ScopeReason.ruleId ruleId ((askedOf dir args p).map ApproverTuple.reason)).head? := by
  rw [reasons_entryOf]
  exact head?_ofKey_of_perm ScopeReason.ruleId (List.perm_insertionSort beforeReason _) ruleId

theorem head?_reasons_of_find? (h : args.flat.find? (fun item =>
    (rulesAsking dir args.costCenterId p item).contains ruleId) = some item) :
    (ofKey ScopeReason.ruleId ruleId ((askedOf dir args p).map ApproverTuple.reason)).head? =
      some ⟨ruleId, messageOfRule item.outcome ruleId⟩ := by
  rw [head?_reasons, head?_speakers, h]
  rfl

theorem messageOfRule_mem (h : OutcomeReordered item item') (ruleId : Nat) :
    messageOfRule item'.outcome ruleId ∈ item.possibleMessages ruleId := by
  unfold messageOfRule LineOutcome.possibleMessages
  have hmatched : item'.outcome.matchedRuleIds.contains ruleId =
      item.outcome.matchedRuleIds.contains ruleId := by
    rw [Bool.eq_iff_iff, List.contains_iff_mem, List.contains_iff_mem]
    exact h.rules.symm.mem_iff
  rw [hmatched]
  cases hrule : item.outcome.matchedRuleIds.contains ruleId with
  | false => simp
  | true =>
    cases hmessages : item'.outcome.denialMessages with
    | nil =>
      have hnil : item.outcome.denialMessages = [] := (hmessages ▸ h.messages).eq_nil
      simp [hnil]
    | cons message rest =>
      have hmem : message ∈ item.outcome.denialMessages :=
        h.messages.mem_iff.mpr (hmessages ▸ List.mem_cons_self)
      rw [List.isEmpty_eq_false_iff.mpr (List.ne_nil_of_mem hmem)]
      exact List.mem_map_of_mem hmem

theorem exists_message {m : Option String} (hm : m ∈ item.possibleMessages ruleId) :
    ∃ item', OutcomeReordered item item' ∧ messageOfRule item'.outcome ruleId = m := by
  unfold LineOutcome.possibleMessages at hm
  split at hm
  · next hrule =>
    obtain ⟨message, hmessage, rfl⟩ := List.mem_map.mp hm
    refine ⟨{ item with outcome := { item.outcome with
      denialMessages := message :: item.outcome.denialMessages.erase message } }, ?_, ?_⟩
    · exact ⟨List.Perm.refl _, List.perm_cons_erase hmessage, List.Perm.refl _, rfl⟩
    · unfold messageOfRule
      rw [(Bool.and_eq_true_iff.mp hrule).1]
      rfl
  · next hrule =>
    obtain rfl := List.mem_singleton.mp hm
    refine ⟨item, OutcomeReordered.refl item, ?_⟩
    unfold messageOfRule
    split
    · next hmatched =>
      cases hmessages : item.outcome.denialMessages with
      | nil => rfl
      | cons message rest => exact absurd (by rw [hmatched, hmessages]; rfl) hrule
    · rfl

theorem ArgsReordered.speaker (h : ArgsReordered args args') (hdir : SamePersons dir dir')
    (hitem : item ∈ speakers dir args p ruleId) :
    ∃ item' ∈ speakers dir' args' p ruleId, OutcomeReordered item item' := by
  obtain ⟨hrule, hplace⟩ := mem_speakers.mp hitem
  rw [← h.costCenter] at hrule hplace
  rcases hplace with hline | ⟨hbundle, hnone⟩
  · obtain ⟨item', hmem, hsame⟩ := h.line hline
    exact ⟨item', mem_speakers.mpr ⟨(hsame.rulesAsking hdir _ p).mem_iff.mp hrule, .inl hmem⟩, hsame⟩
  · obtain ⟨item', hmem, hsame⟩ := h.bundle_to hbundle
    refine ⟨item', mem_speakers.mpr ⟨(hsame.rulesAsking hdir _ p).mem_iff.mp hrule, .inr ⟨hmem, ?_⟩⟩,
      hsame⟩
    intro line' hline' hasks
    obtain ⟨line, hline, hsame'⟩ := h.symm.line hline'
    exact hnone line hline ((hsame'.rulesAsking hdir.symm _ p).mem_iff.mp hasks)

theorem ArgsReordered.reasons_entryOf (h : ArgsReordered args args') (hdir : SamePersons dir dir')
    (hone : ∀ ruleId, ∀ item ∈ speakers dir args p ruleId, ∀ item' ∈ speakers dir args p ruleId,
      ∀ m ∈ item.possibleMessages ruleId, ∀ m' ∈ item'.possibleMessages ruleId, m = m') :
    (entryOf (tuplesOf dir' args') p).reasons = (entryOf (tuplesOf dir args) p).reasons := by
  rw [Orders.reasons_entryOf, Orders.reasons_entryOf]
  refine sortedReasons_eq ?_ (nodup_keys_mergeByKey_nil ScopeReason.ruleId _)
  refine (mergeByKey_nil_perm_congr_iff ScopeReason.ruleId).mpr fun ruleId => ?_
  rw [head?_reasons, head?_reasons]
  cases hnew : speakers dir' args' p ruleId with
  | nil =>
    have hold : speakers dir args p ruleId = [] := by
      refine List.eq_nil_iff_forall_not_mem.mpr fun item hitem => ?_
      obtain ⟨item', hitem', _⟩ := h.speaker hdir hitem
      rw [hnew] at hitem'
      cases hitem'
    rw [hold]
  | cons item' rest' =>
    obtain ⟨item, hitem, hsame⟩ := h.symm.speaker hdir.symm (hnew ▸ List.mem_cons_self)
    cases hold : speakers dir args p ruleId with
    | nil =>
      rw [hold] at hitem
      cases hitem
    | cons first rest =>
      have hfirst : first ∈ speakers dir args p ruleId := hold ▸ List.mem_cons_self
      have hmessage := hone ruleId item hitem first hfirst _ (messageOfRule_mem hsame.symm ruleId) _
        (messageOfRule_mem (OutcomeReordered.refl first) ruleId)
      simp only [List.head?_cons, Option.map_some, hmessage]

/-! ### The first of the lines -/

theorem forall₂_refl (items : List LineOutcome) : List.Forall₂ OutcomeReordered items items :=
  List.forall₂_same.mpr fun item _ => OutcomeReordered.refl item

theorem argsReordered_first (hitem : item ∈ args.perLineOutcomes)
    (hsame : OutcomeReordered item item') :
    ArgsReordered args
      { args with perLineOutcomes := item' :: args.perLineOutcomes.erase item } where
  lines := ⟨_, List.perm_cons_erase hitem, .cons hsame (forall₂_refl _)⟩
  bundle := by
    cases args.bundleOutcome with
    | none => exact .none
    | some item => exact .some (OutcomeReordered.refl item)
  target := rfl
  costCenter := rfl

theorem argsReordered_bundle (hitem : args.bundleOutcome = some item)
    (hsame : OutcomeReordered item item') :
    ArgsReordered args { args with bundleOutcome := some item' } where
  lines := ⟨_, List.Perm.refl _, forall₂_refl _⟩
  bundle := by
    rw [hitem]
    exact .some hsame
  target := rfl
  costCenter := rfl

theorem exists_reason (hitem : item ∈ speakers dir args p ruleId) {m : Option String}
    (hm : m ∈ item.possibleMessages ruleId) :
    ∃ args', ArgsReordered args args' ∧ (ofKey ScopeReason.ruleId ruleId
      ((askedOf dir args' p).map ApproverTuple.reason)).head? = some ⟨ruleId, m⟩ := by
  obtain ⟨item', hsame, rfl⟩ := exists_message hm
  obtain ⟨hrule, hplace⟩ := mem_speakers.mp hitem
  have hrule' : ruleId ∈ rulesAsking dir args.costCenterId p item' :=
    (hsame.rulesAsking (SamePersons.refl dir) _ p).mem_iff.mp hrule
  have hpos : (fun item => (rulesAsking dir args.costCenterId p item).contains ruleId) item' = true :=
    List.contains_iff_mem.mpr hrule'
  rcases hplace with hline | ⟨hbundle, hnone⟩
  · refine ⟨_, argsReordered_first hline hsame, head?_reasons_of_find? ?_⟩
    exact List.find?_cons_of_pos hpos
  · rw [Option.mem_toList] at hbundle
    refine ⟨_, argsReordered_bundle hbundle hsame, head?_reasons_of_find? ?_⟩
    have hlines : args.perLineOutcomes.find? (fun item =>
        (rulesAsking dir args.costCenterId p item).contains ruleId) = none := by
      rw [List.find?_eq_none]
      exact fun line hline hasks => hnone line hline (List.contains_iff_mem.mp hasks)
    refine List.find?_append.trans ?_
    rw [hlines, Option.none_or]
    exact List.find?_cons_of_pos hpos

theorem leads_entryOf_first (rest : List LineOutcome) {x y : k.Id}
    (hasks : item.Asks dir args.costCenterId p) (hleads : Leads x y (item.scope.ids k)) :
    Leads x y ((entryOf (tuplesOf dir { args with perLineOutcomes := item :: rest }) p).ids k) := by
  obtain ⟨ruleId, hrule⟩ := asks_iff.mp hasks
  rw [ids_entryOf_eq, leads_eraseDups, leads_append]
  refine .inl ?_
  unfold scopesAsking
  rw [List.flatMap_cons, List.flatten_append, leads_append]
  refine .inl ?_
  cases hrules : rulesAsking dir args.costCenterId p item with
  | nil =>
    rw [hrules] at hrule
    cases hrule
  | cons rule rules =>
    simp only [List.map_cons, List.flatten_cons, leads_append]
    exact .inl hleads

theorem entryOf_eq_of_plannedRows_eq {idempotencyKey : String} (hp : p ∈ personsAsked dir args)
    (h : plannedRows dir args' idempotencyKey = plannedRows dir args idempotencyKey) :
    entryOf (tuplesOf dir args') p = entryOf (tuplesOf dir args) p := by
  have hrow : approvalRowOf idempotencyKey args.targetEntityId (tuplesOf dir args) p ∈
      plannedRows dir args idempotencyKey := mem_plannedRows.mpr ⟨p, hp, rfl⟩
  rw [← h] at hrow
  obtain ⟨q, _, heq⟩ := mem_plannedRows.mp hrow
  obtain rfl : p = q := Option.some.inj (congrArg AttachPlanApproval.approverPersonId heq)
  exact (congrArg AttachPlanApproval.scopeBreakdown heq).symm

end

/-! ## The law -/

section

variable {dir : ApproverDirectory} {args : AssembleApprovalsArgs} {idempotencyKey : String}
  {seen : ApprovalsSeen} {a b c : PlanScopeBreakdown}

theorem approvers_agree (h : assemble dir args seen = .ok rows)
    (p : Nat) : (∃ row ∈ rows, row.approverPersonId = p) ↔
      ∃ planned ∈ plannedRows dir args idempotencyKey, planned.approverPersonId = some p := by
  have hrows := approverPersonIds_assemble h
  rw [← List.mem_map, hrows]
  constructor
  · exact fun hp => ⟨_, mem_plannedRows.mpr ⟨p, hp, rfl⟩, rfl⟩
  · rintro ⟨planned, hplanned, hperson⟩
    obtain ⟨q, hq, rfl⟩ := mem_plannedRows.mp hplanned
    rwa [← Option.some.inj hperson]

theorem covers_plannedRows (p : Nat) (k : IdKind) (x : k.Id) :
    (∃ planned ∈ plannedRows dir args idempotencyKey,
        planned.approverPersonId = some p ∧ x ∈ planned.scopeBreakdown.ids k) ↔
      ∃ item ∈ args.flat, item.Asks dir args.costCenterId p ∧ x ∈ item.scope.ids k := by
  constructor
  · rintro ⟨planned, hplanned, hperson, hx⟩
    obtain ⟨q, _, rfl⟩ := mem_plannedRows.mp hplanned
    obtain rfl : q = p := Option.some.inj hperson
    exact mem_ids_entryOf.mp hx
  · rintro ⟨item, hitem, hasks, hx⟩
    refine ⟨_, mem_plannedRows.mpr ⟨p, mem_personsAsked.mpr ⟨item, hitem, hasks⟩, rfl⟩, rfl, ?_⟩
    exact mem_ids_entryOf.mpr ⟨item, hitem, hasks, hx⟩

theorem ArgsReordered.plannedRows {dir' : ApproverDirectory} {args' : AssembleApprovalsArgs}
    (h : ArgsReordered args args') (hdir : SamePersons dir dir')
    (hclean : RoutedCleanly dir args seen a b) (idempotencyKey : String) :
    Orders.plannedRows dir' args' idempotencyKey = Orders.plannedRows dir args idempotencyKey := by
  have hpersons : (personsAsked dir' args').insertionSort (· ≤ ·) =
      (personsAsked dir args).insertionSort (· ≤ ·) := by
    refine insertionSort_eq_of_perm ?_ fun _ _ _ _ => Nat.le_antisymm
    refine (List.perm_ext_iff_of_nodup (nodup_eraseDups _) (nodup_eraseDups _)).mpr fun p => ?_
    exact h.mem_personsAsked hdir
  rw [plannedRows_eq, plannedRows_eq, hpersons, h.target]
  refine List.map_congr_left fun p _ => ?_
  have hids := ApprovalScope.ext_ids fun k => h.ids_entryOf hdir k (hclean.agreeing p k)
  have hreasons := h.reasons_entryOf hdir fun ruleId => hclean.oneMessage p ruleId
  have hentry : entryOf (tuplesOf dir' args') p = entryOf (tuplesOf dir args) p := by
    generalize entryOf (tuplesOf dir' args') p = entry' at hids hreasons ⊢
    generalize entryOf (tuplesOf dir args) p = entry at hids hreasons ⊢
    cases entry'
    cases entry
    rw [PlanScopeBreakdown.mk.injEq]
    exact ⟨hids, hreasons⟩
  unfold approvalRowOf
  rw [hentry]

theorem RoutingLaw.oneReason (h : RoutingLaw dir args idempotencyKey seen a b c)
    (hends : ∀ p, (∃ item ∈ args.flat, item.Asks dir args.costCenterId p) →
      landsOn seen p 0 maxAttempts ≠ none) {p : Nat}
    (hnew : landsOn seen p 0 maxAttempts = some none) :
    (args.flat.flatMap (rulesAsking dir args.costCenterId p)).Nodup := by
  by_cases hasked : ∃ item ∈ args.flat, item.Asks dir args.costCenterId p
  · have hends' : ∀ p ∈ personsAsked dir args, ∃ row pending,
        landsOn seen p 0 maxAttempts = some pending ∧
          row = assembledRow args p pending (groupOf (tuplesOf dir args) p) := by
      intro p hp
      obtain ⟨pending, hpending⟩ := Option.ne_none_iff_exists'.mp (hends p (mem_personsAsked.mp hp))
      exact ⟨_, pending, hpending, rfl⟩
    obtain ⟨rows, hrows⟩ := exists_forall₂ hends'
    have hassemble := assemble_eq_ok.mpr hrows
    have hp := mem_personsAsked.mpr hasked
    obtain ⟨row, hrow, pending, hpending, rfl⟩ := forall₂_exists_right hrows hp
    obtain ⟨pending', hpending', hsame⟩ := h.breakdown rows hassemble _ hrow _
      (mem_plannedRows.mpr ⟨p, hp, rfl⟩) rfl
    obtain rfl := Option.some.inj (hnew.symm.trans hpending)
    obtain rfl := Option.some.inj (hnew.symm.trans hpending')
    exact sameBreakdown_new_iff.mp hsame
  · have hnil : args.flat.flatMap (rulesAsking dir args.costCenterId p) = [] := by
      refine List.flatMap_eq_nil_iff.mpr fun item hitem => ?_
      refine List.eq_nil_iff_forall_not_mem.mpr fun ruleId hrule => ?_
      exact hasked ⟨item, hitem, asks_iff.mpr ⟨ruleId, hrule⟩⟩
    rw [hnil]
    exact List.nodup_nil

theorem RoutingLaw.agreeing (h : RoutingLaw dir args idempotencyKey seen a b c) {p : Nat}
    (hitem : item ∈ args.perLineOutcomes) (hitem' : item' ∈ args.perLineOutcomes)
    (hasks : item.Asks dir args.costCenterId p) (hasks' : item'.Asks dir args.costCenterId p)
    {x y : k.Id} (hne : x ≠ y) (hleads : Leads x y (item.scope.ids k)) :
    ¬Leads y x (item'.scope.ids k) := by
  intro hleads'
  have hp := mem_personsAsked.mpr ⟨item, List.mem_append_left _ hitem, hasks⟩
  have hfirst : ∀ {line : LineOutcome}, line ∈ args.perLineOutcomes →
      entryOf (tuplesOf dir
        { args with perLineOutcomes := line :: args.perLineOutcomes.erase line }) p =
          entryOf (tuplesOf dir args) p := by
    intro line hline
    have hreordered := argsReordered_first hline (OutcomeReordered.refl line)
    exact entryOf_eq_of_plannedRows_eq hp (h.stable dir _ (SamePersons.refl dir) hreordered)
  have hxy := leads_entryOf_first (args.perLineOutcomes.erase item) hasks hleads
  have hyx := leads_entryOf_first (args.perLineOutcomes.erase item') hasks' hleads'
  rw [hfirst hitem] at hxy
  rw [hfirst hitem'] at hyx
  exact hxy.asymm hne hyx

theorem RoutingLaw.oneMessage (h : RoutingLaw dir args idempotencyKey seen a b c) {p ruleId : Nat}
    (hitem : item ∈ speakers dir args p ruleId) (hitem' : item' ∈ speakers dir args p ruleId)
    {m m' : Option String} (hm : m ∈ item.possibleMessages ruleId)
    (hm' : m' ∈ item'.possibleMessages ruleId) : m = m' := by
  obtain ⟨args₁, hreordered₁, hreason₁⟩ := exists_reason hitem hm
  obtain ⟨args₂, hreordered₂, hreason₂⟩ := exists_reason hitem' hm'
  have hp : p ∈ personsAsked dir args := by
    obtain ⟨hrule, hplace⟩ := mem_speakers.mp hitem
    refine mem_personsAsked.mpr ⟨item, List.mem_append.mpr ?_, asks_iff.mpr ⟨ruleId, hrule⟩⟩
    exact hplace.imp id And.left
  have hentry₁ := entryOf_eq_of_plannedRows_eq hp (h.stable dir _ (SamePersons.refl dir) hreordered₁)
  have hentry₂ := entryOf_eq_of_plannedRows_eq hp (h.stable dir _ (SamePersons.refl dir) hreordered₂)
  rw [← head?_entryOf, hentry₁] at hreason₁
  rw [← head?_entryOf, hentry₂, hreason₁] at hreason₂
  exact (ScopeReason.mk.inj (Option.some.inj hreason₂)).2

/-- Approvals are routed alike and without loss exactly when no rule asks a person of a new row twice,
the lines agree about the order of their entities and the messages of their rules, and the breakdowns
merge cleanly. -/
theorem routingLaw_iff (dir : ApproverDirectory) (args : AssembleApprovalsArgs)
    (idempotencyKey : String) (seen : ApprovalsSeen) (a b c : PlanScopeBreakdown) :
    RoutingLaw dir args idempotencyKey seen a b c ↔ RoutedCleanly dir args seen a b := by
  constructor
  · intro h
    refine ⟨fun hends p => h.oneReason hends, ?_, ?_, mergeLaw_iff.mp h.merges⟩
    · exact fun p k item hitem item' hitem' hasks hasks' x y hne =>
        h.agreeing hitem hitem' hasks hasks' hne
    · exact fun p ruleId item hitem item' hitem' m hm m' => h.oneMessage hitem hitem' hm
  · intro h
    refine ⟨fun rows => approvers_agree, fun rows hrows row hrow planned hplanned hperson => ?_,
      covers_plannedRows, ⟨nodup_plannedRows, fun rows hrows => ?_⟩, ?_, mergeLaw_iff.mpr h.merges⟩
    · have hlands := assemble_eq_ok.mp hrows
      obtain ⟨p, _, pending, hpending, rfl⟩ := forall₂_exists_left hlands hrow
      obtain ⟨q, _, rfl⟩ := mem_plannedRows.mp hplanned
      obtain rfl : q = p := Option.some.inj hperson
      refine ⟨pending, hpending, ?_⟩
      cases pending with
      | some existing => exact sameBreakdown_existing existing
      | none =>
        refine sameBreakdown_new_iff.mpr (h.oneReason (fun p hp => ?_) q hpending)
        obtain ⟨_, _, pending, hends, _⟩ := forall₂_exists_right hlands (mem_personsAsked.mpr hp)
        rw [hends]
        exact Option.some_ne_none pending
    · rw [approverPersonIds_assemble hrows]
      exact nodup_eraseDups _
    · exact fun dir' args' hdir hreordered => hreordered.plannedRows hdir h idempotencyKey

end

/-! ## A rule of two lines -/

/-- Two lines that rule 1 matches, which asks person 8. -/
def twoLines : AssembleApprovalsArgs where
  targetEntityType := .booking
  targetEntityId := 100
  perLineOutcomes := [21, 22].map fun lineId =>
    { outcome := ⟨.requireApproval, [1], [], [], [(1, .person 8)], false, none⟩
      scope := { ticketIds := [lineId] } }
  costCenterId := none

def noneSeen : ApprovalsSeen where
  pending := fun _ _ => none
  collides := fun _ _ => false

/-- The row that is written gives rule 1 as a reason twice, the row that is planned once. -/
theorem ruleOfTwoLines_repeated : ¬∀ (dir : ApproverDirectory) (args : AssembleApprovalsArgs)
    (idempotencyKey : String) (seen : ApprovalsSeen) (a b c : PlanScopeBreakdown),
      RoutingLaw dir args idempotencyKey seen a b c := by
  intro h
  have hlaw := h { personsOfRole := fun _ => [], defaultApprover := fun _ => none } twoLines "key-1"
    noneSeen {} {} {}
  obtain ⟨pending, hpending, hsame⟩ :=
    hlaw.breakdown _ rfl _ List.mem_cons_self _ List.mem_cons_self rfl
  obtain rfl : none = pending := Option.some.inj hpending
  have hlength := hsame.reasons.length_eq
  revert hlength
  decide

end Prequest.Orders
