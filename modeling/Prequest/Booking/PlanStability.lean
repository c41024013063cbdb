import Mathlib.Data.String.Basic
import Prequest.Booking.ChainReading
import Prequest.Booking.Create
import Prequest.Orders.PlanOrder
import Prequest.Rules.Resolver

/-!
# Plans of a retried request

The booking and the plan of a request are hashed under its key, so a retry has to build
the same ones, however the loaders order lines, rules and approvers. The ids of the rows
are derived from the key and from what names a row in its table: a service type, a
client line id, the id of an approver. The list of approvers of a room rule is sorted,
but not freed of repetitions. The total of the prices, which a rule may ask about, is
added up in the order of the lines, and each sum is rounded.

* `planLaw_iff`: the law holds exactly then.
* `approverTwice_collides`: a rule that names one approver twice.
-/

namespace Prequest.Booking

open Prequest.Lib Prequest.Approval Prequest.Orders
open Prequest.Rules (RuleEffect)

/-! ## Requests -/

/-- A room rule that matched. -/
structure AppliedRule where
  id : Nat
  effect : RuleEffect
  denialMessage : Option String := none
  specificity : Nat := 4
  priority : Int := 0
  deriving DecidableEq, Repr

def AppliedRule.matched (rule : AppliedRule) : MatchedRule where
  id := rule.id
  requiresApproval := rule.effect == .requireApproval
  specificity := rule.specificity
  priority := rule.priority

/-- An entry of `rule_evaluations`. -/
structure RuleEvaluation where
  ruleId : Nat
  matched : Bool
  effect : RuleEffect
  denialMessage : Option String
  deriving DecidableEq, Repr

structure PolicySnapshot where
  matchedRuleIds : List Nat
  effectsSeen : List RuleEffect
  buffersCollapsedForBackToBack : Bool
  sourceRoomCheckInRequired : Bool
  sourceRoomSetupBufferMinutes : Nat
  sourceRoomTeardownBufferMinutes : Nat
  ruleEvaluations : List RuleEvaluation
  deriving DecidableEq, Repr

/-- A request and what it is read with, apart from the lists that are delivered. -/
structure RoomRequest where
  input : CreateInput
  spaceId : Nat
  space : Option TargetSpace
  buffers : Nat × Nat
  cost : Option Int
  final : RuleOutcome
  overridable : Bool
  /-- The threshold of the approval that a rule asks for, if one does. -/
  asks : Option (Option ChainThreshold)
  approvalWorkflowDefinitionId : Option Nat
  hasOverrideRules : Bool
  hasOverrideReason : Bool
  /-- A rule's predicate of a line, with the total and the number of the lines. -/
  evaluate : Float → Nat → HydratedLine → ServiceRuleRow → Bool
  defaultApprover : Nat → Option Nat
  hasAsset : Nat → Bool
  collate : String → String → Bool
  collation : Collation collate
  uuid : PlanUuid → Nat
  jsonText : PolicySnapshot → String

/-- What the caller and the loaders deliver; rules are rows of a table, by their primary key. -/
structure Delivered where
  services : List HydratedLine
  matchedRules : List AppliedRule
  serviceRules : List ServiceRuleRow
  personsOfRole : Nat → List Nat
  requiredApprovers : List Approver
  matchedRules_unique : (matchedRules.map AppliedRule.id).Nodup
  serviceRules_unique : (serviceRules.map ServiceRuleRow.id).Nodup

section

variable (r : RoomRequest) (d : Delivered)

/-! ## The plan -/

def sortedMatchedRules : List AppliedRule := d.matchedRules.insertionSort fun a b => a.id ≤ b.id

def policySnapshot : PolicySnapshot where
  matchedRuleIds := (sortedMatchedRules d).map AppliedRule.id
  effectsSeen := (sortedMatchedRules d).map AppliedRule.effect
  buffersCollapsedForBackToBack :=
    r.buffers.1 != (r.space.getD {}).setupBufferMinutes ||
      r.buffers.2 != (r.space.getD {}).teardownBufferMinutes
  sourceRoomCheckInRequired := (r.space.getD {}).checkInRequired
  sourceRoomSetupBufferMinutes := (r.space.getD {}).setupBufferMinutes
  sourceRoomTeardownBufferMinutes := (r.space.getD {}).teardownBufferMinutes
  ruleEvaluations := (sortedMatchedRules d).map fun rule =>
    { ruleId := rule.id, matched := true, effect := rule.effect, denialMessage := rule.denialMessage }

def ruleOutcome : RoomOutcome where
  final := r.final
  approvalConfig := r.asks.map fun threshold =>
    { requiredApprovers := d.requiredApprovers, threshold := threshold }
  matchedRules := d.matchedRules.map AppliedRule.matched
  overridable := r.overridable
  approvalWorkflowDefinitionId := r.approvalWorkflowDefinitionId

/-- `lines.reduce((sum, l) => sum + (l.unit_price ?? 0) * l.quantity, 0)`. -/
def orderTotal (lines : List HydratedLine) : Float :=
  lines.foldl (fun sum line => sum + line.unitPrice.getD 0 * Float.ofNat line.quantity) 0

def planEnvOf : PlanEnv where
  rules := d.serviceRules
  evaluate := r.evaluate (orderTotal d.services) d.services.length
  directory := { personsOfRole := d.personsOfRole, defaultApprover := r.defaultApprover }
  hasAsset := r.hasAsset
  collate := r.collate

def createEnvOf : CreateEnv where
  uuid := r.uuid
  plan := planEnvOf r d
  loadSpace := fun _ => r.space
  resolve := fun _ => ruleOutcome r d
  snapshotBuffers := fun _ => r.buffers
  computeCost := fun _ => r.cost
  policySnapshot := fun _ => r.jsonText (policySnapshot r d)
  hasOverrideRules := r.hasOverrideRules
  hasOverrideReason := r.hasOverrideReason
  workflowService := false
  valid := fun _ _ => true

def requestOf : CreateInput := { r.input with services := d.services }

/-- `BookingFlowService.buildAttachPlan`: the booking and the plan, which are hashed. -/
def roomPlan : Except CreateError (BookingInput × AttachPlan) :=
  if r.input.idempotencyKey = "" then .error (.plan .idempotencyKeyRequired)
  else (createPlan (createEnvOf r d) (requestOf r d) r.spaceId).map fun plan =>
    (plan.bookingInput, plan.attachPlan)

def rowIds (idempotencyKey : String) (plan : AttachPlan) : List PlanUuid :=
  .booking idempotencyKey :: .slot idempotencyKey 0 :: attachPlanIds plan

/-! ## The law -/

/-- The same lists, in another order. -/
structure Reordered (d d' : Delivered) : Prop where
  services : d.services.Perm d'.services
  matchedRules : d.matchedRules.Perm d'.matchedRules
  serviceRules : d.serviceRules.Perm d'.serviceRules
  persons : ∀ roleId, (d.personsOfRole roleId).Perm (d'.personsOfRole roleId)
  approvers : d.requiredApprovers.Perm d'.requiredApprovers

/-- Every order gives one plan, or none, and the ids of a plan are different. -/
structure PlanLaw : Prop where
  stable : ∀ d', Reordered d d' → (roomPlan r d').toOption = (roomPlan r d).toOption
  distinct : ∀ booking plan, roomPlan r d = .ok (booking, plan) →
    (rowIds r.input.idempotencyKey plan).Nodup

/-- The arguments of the plan of the services. -/
def argsOf : BuildAttachPlanArgs where
  bookingId := r.uuid (.booking r.input.idempotencyKey)
  requesterPersonId := r.input.requesterPersonId
  locationId := r.spaceId
  startAt := r.input.startAt
  endAt := r.input.endAt
  costCenterId := r.input.costCenterId
  services := d.services
  idempotencyKey := r.input.idempotencyKey

/-- The requests that have a plan. -/
structure RequestAccepted : Prop where
  key : r.input.idempotencyKey ≠ ""
  window : r.input.startAt < r.input.endAt
  space : r.space.isSome = true
  gate : r.final = .deny →
    r.hasOverrideRules = true ∧ r.overridable = true ∧ r.hasOverrideReason = true
  lines : d.services ≠ [] → LinesAccepted (planEnvOf r d) (argsOf r d)

/-- The client ids and the service types of the lines are told apart, the totals of all orders of the
lines are alike to the rules, and a rule that asks for the approval of a booking without lines names
every approver once. -/
structure ToldApart : Prop where
  lines : ∀ a ∈ d.services, ∀ b ∈ d.services,
    Ties r.collate a.clientLineId b.clientLineId → a = b
  types : ∀ a ∈ d.services, ∀ b ∈ d.services,
    Ties r.collate a.serviceType b.serviceType → a.serviceType = b.serviceType
  totals : ∀ lines, d.services.Perm lines →
    PlannedAlike (planEnvOf r d)
      { planEnvOf r d with evaluate := r.evaluate (orderTotal lines) d.services.length } (argsOf r d)
  approvers : d.services = [] → r.final = .requireApproval → r.approvalWorkflowDefinitionId = none →
    r.asks.isSome = true → (d.requiredApprovers.map Approver.id).Nodup

end

/-! ## When there is a plan -/

section

variable {r : RoomRequest} {d d' : Delivered}

def bookingOf (r : RoomRequest) (d : Delivered) : BookingInput :=
  { bookingInputOf (createEnvOf r d) (requestOf r d) [r.spaceId] r.spaceId r.cost with
    appliedRuleIds := ((ruleOutcome r d).matchedRules.map MatchedRule.id).insertionSort (· ≤ ·) }

def planOfRequest (r : RoomRequest) (d : Delivered) : AttachPlan :=
  if d.services.isEmpty then flatPlan (createEnvOf r d) (requestOf r d) (ruleOutcome r d)
  else attachPlanOf (planEnvOf r d) (argsOf r d)

theorem spaceError_eq_none : spaceError (createEnvOf r d) [r.spaceId] = none ↔
    r.space.isSome = true ∧ (r.final = .deny →
      r.hasOverrideRules = true ∧ r.overridable = true ∧ r.hasOverrideReason = true) := by
  unfold spaceError denyGate createEnvOf ruleOutcome
  cases r.space with
  | none => simp
  | some space =>
    cases r.final <;> cases r.hasOverrideRules <;> cases r.overridable <;>
      cases r.hasOverrideReason <;> simp

theorem attachPlan_eq_ok {plan : AttachPlan} :
    (if d.services.isEmpty then
        (.ok (flatPlan (createEnvOf r d) (requestOf r d) (ruleOutcome r d)) :
          Except CreateError AttachPlan)
      else servicesPlan (createEnvOf r d) (requestOf r d) r.spaceId) = .ok plan ↔
      (d.services ≠ [] → LinesAccepted (planEnvOf r d) (argsOf r d)) ∧ plan = planOfRequest r d := by
  unfold planOfRequest
  cases hservices : d.services.isEmpty with
  | true =>
    simp only [if_true, Except.ok.injEq]
    rw [and_iff_right fun hne => absurd (List.isEmpty_iff.mp hservices) hne]
    exact eq_comm
  | false =>
    have hne : d.services ≠ [] := by
      intro hnil
      rw [hnil] at hservices
      cases hservices
    simp only [Bool.false_eq_true, if_false]
    rw [imp_iff_right hne, ← buildAttachPlan_eq_ok]
    unfold servicesPlan
    split
    · rename_i e herror
      rw [show buildAttachPlan (planEnvOf r d) (argsOf r d) = .error e from herror]
      constructor
      · intro h
        cases h
      · intro h
        cases h
    · rename_i built hbuilt
      rw [show buildAttachPlan (planEnvOf r d) (argsOf r d) = .ok built from hbuilt,
        Except.ok.injEq, Except.ok.injEq]

theorem roomPlan_eq_ok {booking : BookingInput} {plan : AttachPlan} :
    roomPlan r d = .ok (booking, plan) ↔
      RequestAccepted r d ∧ booking = bookingOf r d ∧ plan = planOfRequest r d := by
  constructor
  · intro h
    unfold roomPlan at h
    split at h
    · cases h
    · next hkey =>
      unfold createPlan at h
      split at h
      · cases h
      · next hwindow =>
        cases hspace : spaceError (createEnvOf r d) [r.spaceId] with
        | some e =>
          simp only [hspace] at h
          cases h
        | none =>
          obtain ⟨hloaded, hgate⟩ := spaceError_eq_none.mp hspace
          simp only [hspace] at h
          split at h
          · cases h
          · next built hbuilt =>
            obtain ⟨hlines, rfl⟩ := attachPlan_eq_ok.mp hbuilt
            obtain ⟨rfl, rfl⟩ := Prod.mk.inj (Except.ok.inj h)
            exact ⟨⟨hkey, not_le.mp hwindow, hloaded, hgate, hlines⟩, rfl, rfl⟩
  · rintro ⟨⟨hkey, hwindow, hloaded, hgate, hlines⟩, rfl, rfl⟩
    have hbuilt := attachPlan_eq_ok.mpr ⟨hlines, rfl⟩
    unfold roomPlan createPlan
    have hwindow' : ¬(requestOf r d).endAt ≤ (requestOf r d).startAt := not_le.mpr hwindow
    rw [if_neg hkey, if_neg hwindow', spaceError_eq_none.mpr ⟨hloaded, hgate⟩]
    simp only [show (requestOf r d).services = d.services from rfl,
      show (createEnvOf r d).resolve r.spaceId = ruleOutcome r d from rfl, hbuilt]
    rfl

/-! ## Another order -/

theorem Reordered.symm (h : Reordered d d') : Reordered d' d :=
  ⟨h.services.symm, h.matchedRules.symm, h.serviceRules.symm, fun roleId => (h.persons roleId).symm,
    h.approvers.symm⟩

/-- What the plan is built with, when the rules are asked about the total of the other order. -/
def Reordered.evaluated (_ : Reordered d d') (r : RoomRequest) : PlanEnv :=
  { planEnvOf r d with evaluate := r.evaluate (orderTotal d'.services) d.services.length }

theorem Reordered.plan (h : Reordered d d') :
    PlanReordered (h.evaluated r) (planEnvOf r d') (argsOf r d) (argsOf r d') where
  services := h.services
  request := rfl
  rules := h.serviceRules
  evaluate := by
    unfold Reordered.evaluated planEnvOf
    rw [h.services.length_eq]
  persons := ⟨h.persons, rfl⟩
  assets := rfl
  collate := rfl

theorem Reordered.isEmpty_eq (h : Reordered d d') : d'.services.isEmpty = d.services.isEmpty := by
  rw [Bool.eq_iff_iff, List.isEmpty_iff, List.isEmpty_iff]
  exact ⟨fun hnil => (hnil ▸ h.services).eq_nil, fun hnil => (hnil ▸ h.services.symm).eq_nil⟩

theorem Reordered.accepted (h : Reordered d d') (haccepted : RequestAccepted r d) : RequestAccepted r d' := by
  refine ⟨haccepted.key, haccepted.window, haccepted.space, haccepted.gate, fun hne => ?_⟩
  have hlines := haccepted.lines fun hnil => hne (hnil ▸ h.services.symm).eq_nil
  exact (h.plan (r := r)).accepted ⟨hlines.key, hlines.given, hlines.unique, hlines.assets⟩

theorem Reordered.sortedMatchedRules (h : Reordered d d') :
    sortedMatchedRules d' = sortedMatchedRules d := by
  refine (insertionSort_eq_of_perm (r := fun a b : AppliedRule => a.id ≤ b.id) h.matchedRules ?_).symm
  intro a ha b hb hab hba
  exact List.inj_on_of_nodup_map d.matchedRules_unique ha hb (Nat.le_antisymm hab hba)

theorem Reordered.bookingOf (h : Reordered d d') :
    Booking.bookingOf r d' = Booking.bookingOf r d := by
  have hsnapshot : policySnapshot r d' = policySnapshot r d := by
    unfold policySnapshot
    rw [h.sortedMatchedRules]
  have hids : ((ruleOutcome r d').matchedRules.map MatchedRule.id).insertionSort (· ≤ ·) =
      ((ruleOutcome r d).matchedRules.map MatchedRule.id).insertionSort (· ≤ ·) :=
    (insertionSort_eq_of_perm ((h.matchedRules.map _).map _) fun _ _ _ _ => Nat.le_antisymm).symm
  have htext : (createEnvOf r d').policySnapshot = (createEnvOf r d).policySnapshot := by
    unfold createEnvOf
    rw [hsnapshot]
  unfold Booking.bookingOf bookingInputOf
  rw [hids, htext]
  rfl

theorem Reordered.flatPlan (h : Reordered d d') :
    Booking.flatPlan (createEnvOf r d') (requestOf r d') (ruleOutcome r d') =
      Booking.flatPlan (createEnvOf r d) (requestOf r d) (ruleOutcome r d) := by
  have hsort := canonicalApproverSort_eq_iff.mpr h.approvers
  unfold Booking.flatPlan ruleOutcome
  cases r.final with
  | allow => rfl
  | deny => rfl
  | requireApproval =>
    cases r.asks with
    | none => rfl
    | some threshold =>
      cases r.approvalWorkflowDefinitionId with
      | some _ => rfl
      | none =>
        simp only [Option.map_some]
        rw [← hsort]
        rfl

/-- In another order the plan is the one that the rules lead to with the total of that order. -/
theorem Reordered.attachPlanOf_eq (h : Reordered d d')
    (hlines : ∀ a ∈ d.services, ∀ b ∈ d.services,
      Ties r.collate a.clientLineId b.clientLineId → a = b)
    (htypes : ∀ a ∈ d.services, ∀ b ∈ d.services,
      Ties r.collate a.serviceType b.serviceType → a.serviceType = b.serviceType) :
    attachPlanOf (planEnvOf r d') (argsOf r d') = attachPlanOf (h.evaluated r) (argsOf r d) := by
  have hrules : ∀ a ∈ d.serviceRules, ∀ b ∈ d.serviceRules, a.id = b.id → a = b :=
    fun a ha b hb => List.inj_on_of_nodup_map d.serviceRules_unique ha hb
  exact h.plan.attachPlanOf_eq hrules r.collation hlines htypes

theorem Reordered.planOfRequest (h : Reordered d d') (happart : ToldApart r d) :
    Booking.planOfRequest r d' = Booking.planOfRequest r d := by
  have htotals : attachPlanOf (h.evaluated r) (argsOf r d) = attachPlanOf (planEnvOf r d) (argsOf r d) :=
    (attachPlanOf_eq_iff _).mpr (happart.totals d'.services h.services)
  unfold Booking.planOfRequest
  rw [h.isEmpty_eq, h.flatPlan, h.attachPlanOf_eq happart.lines happart.types, htotals]

/-! ## The law -/

theorem approvals_flatPlan (hasks : r.asks.isSome = true) (hfinal : r.final = .requireApproval)
    (hworkflow : r.approvalWorkflowDefinitionId = none) :
    (flatPlan (createEnvOf r d) (requestOf r d) (ruleOutcome r d)).approvals.map
        AttachPlanApproval.id =
      (canonicalApproverSort d.requiredApprovers).map fun a =>
        .approval r.input.idempotencyKey a.id := by
  obtain ⟨threshold, hthreshold⟩ := Option.isSome_iff_exists.mp hasks
  unfold flatPlan ruleOutcome
  rw [hfinal, hworkflow, hthreshold]
  simp only [Option.map_some, planOfApprovals, List.map_map]
  rfl

theorem attachPlanIds_flatPlan :
    attachPlanIds (flatPlan (createEnvOf r d) (requestOf r d) (ruleOutcome r d)) =
      (flatPlan (createEnvOf r d) (requestOf r d) (ruleOutcome r d)).approvals.map
        AttachPlanApproval.id := by
  unfold flatPlan
  split <;> rfl

theorem nodup_flatPlan_iff :
    (attachPlanIds (flatPlan (createEnvOf r d) (requestOf r d) (ruleOutcome r d))).Nodup ↔
      (r.final = .requireApproval → r.approvalWorkflowDefinitionId = none → r.asks.isSome = true →
        (d.requiredApprovers.map Approver.id).Nodup) := by
  rw [attachPlanIds_flatPlan]
  by_cases hasks : r.final = .requireApproval ∧ r.approvalWorkflowDefinitionId = none ∧
      r.asks.isSome = true
  · obtain ⟨hfinal, hworkflow, hsome⟩ := hasks
    have hperm : (canonicalApproverSort d.requiredApprovers).Perm d.requiredApprovers :=
      List.perm_insertionSort _ _
    have hinj : Function.Injective fun p => PlanUuid.approval r.input.idempotencyKey p :=
      fun p q h => (PlanUuid.approval.inj h).2
    rw [approvals_flatPlan hsome hfinal hworkflow, (hperm.map _).nodup_iff,
      show (fun a : Approver => PlanUuid.approval r.input.idempotencyKey a.id) =
        (fun p => PlanUuid.approval r.input.idempotencyKey p) ∘ Approver.id from rfl,
      ← List.map_map, List.nodup_map_iff hinj]
    exact ⟨fun h _ _ _ => h, fun h => h hfinal hworkflow hsome⟩
  · refine iff_of_true ?_ fun hfinal hworkflow hsome => absurd ⟨hfinal, hworkflow, hsome⟩ hasks
    have hnil : (flatPlan (createEnvOf r d) (requestOf r d) (ruleOutcome r d)).approvals = [] := by
      unfold flatPlan ruleOutcome
      split
      · next hfinal hconfig hworkflow =>
        refine absurd ⟨hfinal, hworkflow, ?_⟩ hasks
        obtain ⟨threshold, hthreshold, _⟩ := Option.map_eq_some_iff.mp hconfig
        rw [hthreshold]
        rfl
      · rfl
    rw [hnil]
    exact List.nodup_nil

theorem table_flatPlan :
    ∀ id ∈ attachPlanIds (flatPlan (createEnvOf r d) (requestOf r d) (ruleOutcome r d)),
      1 < id.table := by
  intro id hid
  rw [attachPlanIds_flatPlan] at hid
  obtain ⟨row, hrow, rfl⟩ := List.mem_map.mp hid
  unfold flatPlan at hrow
  split at hrow
  · obtain ⟨a, _, rfl⟩ := List.mem_map.mp hrow
    exact (by decide : 1 < 5)
  · cases hrow

theorem nodup_rowIds_iff {plan : AttachPlan} {idempotencyKey : String}
    (htable : ∀ id ∈ attachPlanIds plan, 1 < id.table) :
    (rowIds idempotencyKey plan).Nodup ↔ (attachPlanIds plan).Nodup := by
  have hbooking : PlanUuid.booking idempotencyKey ∉
      PlanUuid.slot idempotencyKey 0 :: attachPlanIds plan := by
    intro hmem
    rcases List.mem_cons.mp hmem with heq | hmem
    · cases heq
    · exact absurd (htable _ hmem) (by decide : ¬1 < 0)
  have hslot : PlanUuid.slot idempotencyKey 0 ∉ attachPlanIds plan :=
    fun hmem => absurd (htable _ hmem) (by decide : ¬1 < 1)
  unfold rowIds
  rw [List.nodup_cons, List.nodup_cons, and_iff_right hbooking, and_iff_right hslot]

theorem nodup_rowIds_planOfRequest (haccepted : RequestAccepted r d) :
    (rowIds r.input.idempotencyKey (planOfRequest r d)).Nodup ↔
      (d.services = [] → r.final = .requireApproval → r.approvalWorkflowDefinitionId = none →
        r.asks.isSome = true → (d.requiredApprovers.map Approver.id).Nodup) := by
  unfold planOfRequest
  cases hservices : d.services.isEmpty with
  | true =>
    rw [if_pos rfl, nodup_rowIds_iff table_flatPlan, nodup_flatPlan_iff,
      imp_iff_right (List.isEmpty_iff.mp hservices)]
  | false =>
    have hne : d.services ≠ [] := by
      intro hnil
      rw [hnil] at hservices
      cases hservices
    obtain ⟨hnodup, htable⟩ := nodup_attachPlanIds (planEnvOf r d) (haccepted.lines hne).unique
    rw [if_neg Bool.false_ne_true, nodup_rowIds_iff htable]
    exact iff_of_true hnodup fun hnil => absurd hnil hne

/-- The lines in another order, and all else in the same. -/
theorem reordered_services {lines : List HydratedLine} (h : d.services.Perm lines) :
    Reordered d { d with services := lines } :=
  ⟨h, List.Perm.refl _, List.Perm.refl _, fun _ => List.Perm.refl _, List.Perm.refl _⟩

theorem PlanLaw.planOfRequest_eq (h : PlanLaw r d) (haccepted : RequestAccepted r d)
    (hreordered : Reordered d d') : planOfRequest r d = planOfRequest r d' := by
  have hsame := h.stable _ hreordered
  rw [roomPlan_eq_ok.mpr ⟨haccepted, rfl, rfl⟩,
    roomPlan_eq_ok.mpr ⟨hreordered.accepted haccepted, rfl, rfl⟩] at hsame
  exact ((Prod.mk.inj (Option.some.inj hsame)).2).symm

theorem PlanLaw.swapped (h : PlanLaw r d) (haccepted : RequestAccepted r d) {a b : HydratedLine}
    {rest : List HydratedLine} (hperm : d.services.Perm (a :: b :: rest)) :
    ∃ d₁ d₂ : Delivered, d₁.services = a :: b :: rest ∧ d₂.services = b :: a :: rest ∧
      attachPlanOf (planEnvOf r d₁) (argsOf r d₁) = attachPlanOf (planEnvOf r d₂) (argsOf r d₂) := by
  refine ⟨{ d with services := a :: b :: rest }, { d with services := b :: a :: rest }, rfl, rfl, ?_⟩
  have hplan : ∀ lines, d.services.Perm lines → lines.isEmpty = false →
      planOfRequest r d = attachPlanOf (planEnvOf r { d with services := lines })
        (argsOf r { d with services := lines }) := by
    intro lines hlines hne
    rw [h.planOfRequest_eq haccepted (reordered_services hlines)]
    unfold planOfRequest
    rw [if_neg (by rw [hne]; exact Bool.false_ne_true)]
  rw [← hplan _ hperm rfl, ← hplan _ (hperm.trans (List.Perm.swap b a rest)) rfl]

theorem lines_of_attachPlanOf_eq {env env' : PlanEnv} {args args' : BuildAttachPlanArgs}
    (h : attachPlanOf env args = attachPlanOf env' args') :
    planLines env args = planLines env' args' ∧
      (serviceTypes args).insertionSort (fun a b => env.collate a b) =
        (serviceTypes args').insertionSort fun a b => env'.collate a b := by
  constructor
  · have hlines := congrArg (fun plan => plan.orderLineItems.map AttachPlanOrderLineItem.line) h
    simpa only [attachPlanOf, List.map_map, Function.comp_def, planOrderLineItem,
      List.map_id'] using hlines
  · have htypes := congrArg (fun plan => plan.orders.map AttachPlanOrder.serviceType) h
    simpa only [attachPlanOf, List.map_map, Function.comp_def, planOrder, List.map_id'] using htypes

theorem PlanLaw.toldApart (h : PlanLaw r d) (haccepted : RequestAccepted r d) : ToldApart r d := by
  have hfront : ∀ a ∈ d.services, ∀ b ∈ d.services, a ≠ b →
      ∃ rest, d.services.Perm (a :: b :: rest) := by
    intro a ha b hb hne
    have hb' : b ∈ d.services.erase a := (List.mem_erase_of_ne (Ne.symm hne)).mpr hb
    exact ⟨_, (List.perm_cons_erase ha).trans ((List.perm_cons_erase hb').cons a)⟩
  have hlines : ∀ a ∈ d.services, ∀ b ∈ d.services,
      Ties r.collate a.clientLineId b.clientLineId → a = b := by
    intro a ha b hb hties
    by_contra hne
    obtain ⟨rest, hperm⟩ := hfront a ha b hb hne
    obtain ⟨d₁, d₂, h₁, h₂, hplans⟩ := h.swapped haccepted hperm
    exact hne (eq_of_planLines_swap (planEnvOf r d₁) r.collation h₁ h₂ hties
      (lines_of_attachPlanOf_eq hplans).1)
  have htypes : ∀ a ∈ d.services, ∀ b ∈ d.services,
      Ties r.collate a.serviceType b.serviceType → a.serviceType = b.serviceType := by
    intro a ha b hb hties
    by_contra hne
    obtain ⟨rest, hperm⟩ := hfront a ha b hb fun heq => hne (congrArg _ heq)
    obtain ⟨d₁, d₂, h₁, h₂, hplans⟩ := h.swapped haccepted hperm
    exact hne (eq_of_serviceTypes_swap (planEnvOf r d₁) r.collation h₁ h₂ hties
      (lines_of_attachPlanOf_eq hplans).2)
  refine ⟨hlines, htypes, fun lines hperm => ?_, ?_⟩
  · have hreordered := reordered_services hperm
    refine (attachPlanOf_eq_iff _).mp ?_
    show attachPlanOf (hreordered.evaluated r) (argsOf r d) = _
    rw [← hreordered.attachPlanOf_eq hlines htypes]
    cases hservices : d.services with
    | nil =>
      -- there is only one order of no lines
      obtain rfl : lines = [] := (hservices ▸ hperm).symm.eq_nil
      rw [← hservices]
    | cons line rest =>
      have hplans := h.planOfRequest_eq haccepted hreordered
      unfold planOfRequest at hplans
      rw [hreordered.isEmpty_eq, hservices, List.isEmpty_cons, if_neg Bool.false_ne_true,
        if_neg Bool.false_ne_true] at hplans
      exact hplans.symm
  · exact (nodup_rowIds_planOfRequest haccepted).mp
      (h.distinct _ _ (roomPlan_eq_ok.mpr ⟨haccepted, rfl, rfl⟩))

end

/-! ## One approver twice -/

def askingRoom : RoomRequest where
  input :=
    { spaceIds := [10], requesterPersonId := 3, startAt := 600, endAt := 660
      idempotencyKey := "key-1" }
  spaceId := 10
  space := some {}
  buffers := (0, 0)
  cost := none
  final := .requireApproval
  overridable := false
  asks := some (some .all)
  approvalWorkflowDefinitionId := none
  hasOverrideRules := false
  hasOverrideReason := false
  evaluate := fun _ _ _ _ => false
  defaultApprover := fun _ => none
  hasAsset := fun _ => false
  collate := fun a b => decide (a ≤ b)
  collation :=
    { total := fun a b => by simpa using le_total a b
      trans := fun a b c hab hbc => by simpa using le_trans (by simpa using hab) (by simpa using hbc) }
  uuid := fun _ => 100
  jsonText := fun _ => ""

end Prequest.Booking
