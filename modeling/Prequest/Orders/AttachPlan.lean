import Prequest.Booking.Db
import Prequest.Orders.ApprovalRouting

/-!
# The attach plan

`buildAttachPlan` turns the service lines of a booking into the rows that one
transaction will insert: orders, order lines, asset reservations and approvals.
The booking waits for approval when the rules ask for one on some line; the
approvals are those whose targets resolve to people. The flag and the rows come
from different parts of the rules.

* `canBeCleared_iff`: the plan can be cleared exactly then.
* `overridePlan_not_canBeCleared`: a line whose only rule allows an override.
-/

namespace Prequest.Orders

open Prequest.Approval Prequest.Booking

/-- A service line after `hydrateLines`, with its trimmed `client_line_id`. -/
structure HydratedLine where
  clientLineId : String
  serviceType : String
  catalogItemId : String
  catalogItemCategory : Option String := none
  menuId : Option String := none
  menuItemId : Option String := none
  quantity : Nat := 1
  unitPrice : Option Float := none
  linkedAssetId : Option Nat := none
  fulfillmentTeamId : Option Nat := none
  fulfillmentVendorId : Option Nat := none
  serviceWindowStartAt : Option Int := none
  serviceWindowEndAt : Option Int := none
  repeatsWithSeries : Bool := false
  deriving DecidableEq

def HydratedLine.ruleLine (line : HydratedLine) : RuleLine where
  catalogItemId := line.catalogItemId
  catalogItemCategory := line.catalogItemCategory
  menuId := line.menuId

/-- The arguments of `buildAttachPlan`, its lines hydrated. -/
structure BuildAttachPlanArgs where
  bookingId : Nat
  requesterPersonId : Nat
  locationId : Nat
  startAt : Int
  endAt : Int
  costCenterId : Option Nat := none
  services : List HydratedLine
  idempotencyKey : String
  deriving DecidableEq

/-- What the plan builder reads besides its arguments. -/
structure PlanEnv where
  /-- The active rules of the tenant, by id. -/
  rules : List ServiceRuleRow
  /-- The predicate of a rule holds of a line. -/
  evaluate : HydratedLine → ServiceRuleRow → Bool
  directory : ApproverDirectory
  /-- The asset exists in the tenant. -/
  hasAsset : Nat → Bool
  /-- `localeCompare(a, b) <= 0`. -/
  collate : String → String → Bool

inductive BuildAttachPlanError where
  | idempotencyKeyRequired
  | clientLineIdRequired
  | clientLineIdNotUnique (clientLineId : String)
  | assetNotFound (assetId : Nat)
  deriving DecidableEq, Repr

inductive OrderInitialStatus where
  | submitted
  | approved
  deriving DecidableEq, Repr

structure AttachPlanOrder where
  id : PlanUuid
  serviceType : String
  requesterPersonId : Nat
  deliveryLocationId : Nat
  requestedForStartAt : Int
  requestedForEndAt : Int
  initialStatus : OrderInitialStatus
  deriving DecidableEq, Repr

structure AttachPlanAssetReservation where
  id : PlanUuid
  assetId : Nat
  startAt : Option Int
  endAt : Option Int
  requesterPersonId : Nat
  bookingId : Nat
  deriving DecidableEq, Repr

structure AttachPlanSetupEmit where
  serviceCategory : String
  ruleIds : List Nat
  leadTimeOverrideMinutes : Option Nat
  deriving DecidableEq, Repr

/-- A line of the plan. The two setup fields are `none` when the JSON object has no such key. -/
structure AttachPlanOrderLineItem where
  id : PlanUuid
  orderId : PlanUuid
  line : HydratedLine
  linkedAssetReservationId : Option PlanUuid
  pendingSetupTriggerArgs : Option (Jsonb SetupTriggerArgs)
  setupEmit : Option (Jsonb AttachPlanSetupEmit)
  deriving DecidableEq

structure AttachPlan where
  anyPendingApproval : Bool
  anyDeny : Bool
  denyMessages : List String
  orders : List AttachPlanOrder
  assetReservations : List AttachPlanAssetReservation
  orderLineItems : List AttachPlanOrderLineItem
  approvals : List AttachPlanApproval
  deriving DecidableEq

section

variable (env : PlanEnv) (args : BuildAttachPlanArgs)

/-! ## Lines -/

def orderIdOf (serviceType : String) : PlanUuid := .order args.idempotencyKey serviceType

def oliIdOf (line : HydratedLine) : PlanUuid :=
  .oli args.idempotencyKey (orderIdOf args line.serviceType) line.clientLineId

def assetReservationIdOf (line : HydratedLine) : Option PlanUuid :=
  line.linkedAssetId.map fun _ =>
    .assetReservation args.idempotencyKey (orderIdOf args line.serviceType) line.clientLineId

def serviceTypes : List String := (args.services.map HydratedLine.serviceType).eraseDups

def planLines : List HydratedLine :=
  ((serviceTypes args).flatMap fun serviceType =>
    args.services.filter fun line => line.serviceType == serviceType).insertionSort
      fun a b => env.collate a.clientLineId b.clientLineId

section

variable (line : HydratedLine)

def matchedRules : List ServiceRuleRow :=
  matchAndEvaluate (env.evaluate line) env.rules line.ruleLine

def outcomeOf : ServiceRuleOutcome :=
  aggregateMatchedRules (matchedRules env line)

def perLineApproval : LineOutcome where
  outcome := outcomeOf env line
  scope :=
    { reservationIds := [args.bookingId]
      orderIds := [orderIdOf args line.serviceType]
      orderLineItemIds := [oliIdOf args line]
      ticketIds := []
      assetReservationIds := (assetReservationIdOf args line).toList }

end

def anyDeny : Bool :=
  (planLines env args).any fun line => (outcomeOf env line).effect == .deny

def anyPendingApproval : Bool :=
  (planLines env args).any fun line => (outcomeOf env line).pending

/-! ## Rows -/

def planOrder (serviceType : String) : AttachPlanOrder where
  id := orderIdOf args serviceType
  serviceType := serviceType
  requesterPersonId := args.requesterPersonId
  deliveryLocationId := args.locationId
  requestedForStartAt := args.startAt
  requestedForEndAt := args.endAt
  initialStatus := if anyPendingApproval env args then .submitted else .approved

section

variable (line : HydratedLine)

def planAssetReservation : Option AttachPlanAssetReservation :=
  match line.linkedAssetId, assetReservationIdOf args line with
  | some assetId, some id => some
      { id := id
        assetId := assetId
        startAt := line.serviceWindowStartAt
        endAt := line.serviceWindowEndAt
        requesterPersonId := args.requesterPersonId
        bookingId := args.bookingId }
  | _, _ => none

def setupTriggerArgs : SetupTriggerArgs where
  serviceCategory := some line.serviceType
  serviceWindowStartAt := line.serviceWindowStartAt
  locationId := some args.locationId
  ruleIds := some ((outcomeOf env line).matchedRuleIds.insertionSort (· ≤ ·))
  leadTimeOverride := (outcomeOf env line).internalSetupLeadTimeMinutes.map Int.ofNat
  originSurface := some "bundle"

/-- A row for a line. Both setup fields are there, with JSON `null` where they are not filled. -/
def planOrderLineItem : AttachPlanOrderLineItem :=
  let setup := (outcomeOf env line).requiresInternalSetup
  let pending := anyPendingApproval env args
  { id := oliIdOf args line
    orderId := orderIdOf args line.serviceType
    line := line
    linkedAssetReservationId := assetReservationIdOf args line
    pendingSetupTriggerArgs := some
      (if setup && pending then .object (setupTriggerArgs env args line) else .null)
    setupEmit := some (if setup && !pending then .object
        { serviceCategory := line.serviceType
          ruleIds := (outcomeOf env line).matchedRuleIds.insertionSort (· ≤ ·)
          leadTimeOverrideMinutes := (outcomeOf env line).internalSetupLeadTimeMinutes }
      else .null) }

end

def planApprovals : List AttachPlanApproval :=
  if anyDeny env args then []
  else assemblePlan env.directory args.costCenterId args.idempotencyKey args.bookingId
    ((planLines env args).map (perLineApproval env args))

/-- The first `client_line_id` that occurs twice. -/
def duplicateLineId : List String → Option String
  | [] => none
  | id :: ids => if ids.contains id then some id else duplicateLineId ids

/-- `buildAttachPlan`. -/
def buildAttachPlan : Except BuildAttachPlanError AttachPlan :=
  let lineIds := args.services.map HydratedLine.clientLineId
  if args.idempotencyKey = "" then .error .idempotencyKeyRequired
  else if lineIds.contains "" then .error .clientLineIdRequired
  else match duplicateLineId lineIds with
    | some id => .error (.clientLineIdNotUnique id)
    | none =>
        match (args.services.filterMap HydratedLine.linkedAssetId).find? fun id => !env.hasAsset id with
        | some assetId => .error (.assetNotFound assetId)
        | none => .ok
            { anyPendingApproval := anyPendingApproval env args
              anyDeny := anyDeny env args
              denyMessages :=
                if anyDeny env args then
                  (planLines env args).flatMap fun line => (outcomeOf env line).denialMessages
                else []
              orders := ((serviceTypes args).insertionSort fun a b => env.collate a b).map
                (planOrder env args)
              assetReservations := (planLines env args).filterMap (planAssetReservation args)
              orderLineItems := (planLines env args).map (planOrderLineItem env args)
              approvals := planApprovals env args }

/-! ## The law -/

structure CanBeCleared (plan : AttachPlan) : Prop where
  nonempty : plan.approvals ≠ []
  covered : ∀ line ∈ args.services, (outcomeOf env line).pending = true →
    ∃ row ∈ plan.approvals, oliIdOf args line ∈ row.scopeBreakdown.orderLineItemIds
  asked : ∀ row ∈ plan.approvals, row.approverPersonId.isSome = true

/-- A rule that requires approval, matched by the line, has a target that stands for somebody. -/
def HasApprover (line : HydratedLine) : Prop :=
  ∃ rule ∈ matchedRules env line, rule.effect = .requireApproval ∧
    ∃ target ∈ extractApproverTargets rule,
      resolveApproverTarget env.directory args.costCenterId target.2 ≠ []

/-- Unless a rule denies some line, every line with a rule that asks for an approval or allows an
override has somebody to approve it. -/
def HasApproverForEveryPendingLine : Prop :=
  (∀ line ∈ args.services, ∀ rule ∈ matchedRules env line, rule.effect ≠ .deny) →
    ∀ line ∈ args.services, (∃ rule ∈ matchedRules env line, rule.asksApproval = true) →
      HasApprover env args line

end

section

variable {env : PlanEnv} {args : BuildAttachPlanArgs}

variable {line : HydratedLine}

theorem mem_planLines : line ∈ planLines env args ↔ line ∈ args.services := by
  rw [planLines, List.mem_insertionSort, List.mem_flatMap]
  constructor
  · intro h
    obtain ⟨_, _, hline⟩ := h
    exact (List.mem_filter.mp hline).1
  · intro h
    refine ⟨line.serviceType, ?_, List.mem_filter.mpr ⟨h, by simp⟩⟩
    rw [serviceTypes, List.mem_eraseDups]
    exact List.mem_map_of_mem h

theorem anyDeny_eq_false :
    anyDeny env args = false ↔
      ∀ line ∈ args.services, ∀ rule ∈ matchedRules env line, rule.effect ≠ .deny := by
  simp only [anyDeny, List.any_eq_false, beq_iff_eq, mem_planLines, outcomeOf, deny_iff,
    not_exists, not_and, ne_eq]

theorem anyPendingApproval_eq_true :
    anyPendingApproval env args = true ↔
      ∃ line ∈ args.services, (outcomeOf env line).pending = true := by
  simp only [anyPendingApproval, List.any_eq_true, mem_planLines]

theorem nodup_of_duplicateLineId {ids : List String} (h : duplicateLineId ids = none) :
    ids.Nodup := by
  induction ids with
  | nil => exact List.nodup_nil
  | cons id ids ih =>
    rw [duplicateLineId] at h
    split at h
    · cases h
    · rename_i hfresh
      exact List.nodup_cons.mpr ⟨by simpa using hfresh, ih h⟩

theorem buildAttachPlan_ok {plan : AttachPlan} (h : buildAttachPlan env args = .ok plan) :
    plan.approvals = planApprovals env args ∧
      plan.anyPendingApproval = anyPendingApproval env args ∧ plan.anyDeny = anyDeny env args ∧
      (args.services.map HydratedLine.clientLineId).Nodup := by
  simp only [buildAttachPlan] at h
  split at h
  · cases h
  · split at h
    · cases h
    · split at h
      · cases h
      · rename_i hunique
        split at h
        · cases h
        · cases h
          exact ⟨rfl, rfl, rfl, nodup_of_duplicateLineId hunique⟩

theorem hasApprover_iff :
    (perLineApproval env args line).HasApprover env.directory args.costCenterId ↔
      HasApprover env args line := by
  simp only [LineOutcome.HasApprover, HasApprover, perLineApproval, outcomeOf,
    mem_approverTargets]
  constructor
  · intro h
    obtain ⟨target, ⟨rule, hrule, heffect, htarget⟩, hresolved⟩ := h
    exact ⟨rule, hrule, heffect, target, htarget, hresolved⟩
  · intro h
    obtain ⟨rule, hrule, heffect, target, htarget, hresolved⟩ := h
    exact ⟨target, ⟨rule, hrule, heffect, htarget⟩, hresolved⟩

theorem covered_iff (hdeny : anyDeny env args = false)
    (hunique : (args.services.map HydratedLine.clientLineId).Nodup) (hline : line ∈ args.services) :
    (∃ row ∈ planApprovals env args, oliIdOf args line ∈ row.scopeBreakdown.orderLineItemIds) ↔
      HasApprover env args line := by
  rw [planApprovals, hdeny, if_neg Bool.false_ne_true, mem_orderLineItemIds_assemblePlan]
  constructor
  · intro h
    obtain ⟨item, hitem, hscope, happrover⟩ := h
    obtain ⟨other, hother, rfl⟩ := List.mem_map.mp hitem
    simp only [perLineApproval, List.mem_singleton, oliIdOf, PlanUuid.oli.injEq, true_and] at hscope
    -- Different lines have different ids, so the row is about this line.
    have hsame : line = other :=
      List.inj_on_of_nodup_map hunique hline (mem_planLines.mp hother) hscope.2
    subst hsame
    exact hasApprover_iff.mp happrover
  · intro h
    refine ⟨_, List.mem_map_of_mem (mem_planLines.mpr hline), ?_, hasApprover_iff.mpr h⟩
    simp [perLineApproval]

theorem orderLineItemIds_ne_nil {row : AttachPlanApproval} (h : row ∈ planApprovals env args) :
    row.scopeBreakdown.orderLineItemIds ≠ [] := by
  unfold planApprovals at h
  split at h
  · exact absurd h List.not_mem_nil
  · obtain ⟨item, hitem, _, hlines⟩ := exists_outcome_of_mem_assemblePlan h
    obtain ⟨line, _, rfl⟩ := List.mem_map.mp hitem
    exact List.ne_nil_of_mem (hlines _ (List.mem_singleton.mpr rfl))

theorem planApprovals_eq_nil_iff (hdeny : anyDeny env args = false) :
    planApprovals env args = [] ↔ ∀ line ∈ args.services, ¬ HasApprover env args line := by
  rw [planApprovals, hdeny, if_neg Bool.false_ne_true]
  constructor
  · intro hnil line hline happrover
    have hcovers : ∃ item ∈ (planLines env args).map (perLineApproval env args),
        oliIdOf args line ∈ item.scope.orderLineItemIds ∧
          item.HasApprover env.directory args.costCenterId :=
      ⟨_, List.mem_map_of_mem (mem_planLines.mpr hline), List.mem_singleton.mpr rfl,
        hasApprover_iff.mpr happrover⟩
    obtain ⟨row, hrow, _⟩ := mem_orderLineItemIds_assemblePlan.mpr hcovers
    rw [hnil] at hrow
    exact List.not_mem_nil hrow
  · intro hnone
    refine List.eq_nil_iff_forall_not_mem.mpr ?_
    intro row hrow
    obtain ⟨item, hitem, happrover, _⟩ := exists_outcome_of_mem_assemblePlan hrow
    obtain ⟨line, hline, rfl⟩ := List.mem_map.mp hitem
    exact hnone line (mem_planLines.mp hline) (hasApprover_iff.mp happrover)

/-- A plan that waits for approval can be cleared exactly when every line that waits has an
approver. -/
theorem canBeCleared_iff {plan : AttachPlan} (h : buildAttachPlan env args = .ok plan) :
    (plan.anyPendingApproval = true → plan.anyDeny = false → CanBeCleared env args plan) ↔
      HasApproverForEveryPendingLine env args := by
  obtain ⟨happrovals, hpending, hdeny, hunique⟩ := buildAttachPlan_ok h
  rw [hpending, hdeny, anyDeny_eq_false, anyPendingApproval_eq_true]
  constructor
  · intro hlaw hnodeny line hline hasks
    have hwaits : (outcomeOf env line).pending = true := pending_iff.mpr ⟨hnodeny line hline, hasks⟩
    have hcovered := (hlaw ⟨line, hline, hwaits⟩ hnodeny).covered line hline hwaits
    rw [happrovals] at hcovered
    exact (covered_iff (anyDeny_eq_false.mpr hnodeny) hunique hline).mp hcovered
  · intro hall hsome hnodeny
    have hcovered : ∀ line ∈ args.services, (outcomeOf env line).pending = true →
        ∃ row ∈ plan.approvals, oliIdOf args line ∈ row.scopeBreakdown.orderLineItemIds := by
      intro line hline hwaits
      rw [happrovals, covered_iff (anyDeny_eq_false.mpr hnodeny) hunique hline]
      exact hall hnodeny line hline (pending_iff.mp hwaits).2
    refine ⟨?_, hcovered, ?_⟩
    · obtain ⟨line, hline, hwaits⟩ := hsome
      obtain ⟨row, hrow, _⟩ := hcovered line hline hwaits
      exact List.ne_nil_of_mem hrow
    · intro row hrow
      rw [happrovals, planApprovals, anyDeny_eq_false.mpr hnodeny,
        if_neg Bool.false_ne_true] at hrow
      exact approverPersonId_assemblePlan hrow

end

/-! ## A line nobody is asked about -/

def coffeeLine : HydratedLine where
  clientLineId := "line-1"
  serviceType := "catering"
  catalogItemId := "coffee"
  quantity := 8

/-- Only somebody with the right to override may order it. -/
def overrideRule : ServiceRuleRow where
  id := 1
  effect := .allowOverride

def approverRule : ServiceRuleRow where
  id := 2
  effect := .requireApproval
  approvalConfig := some { approverTarget := some .person, personId := some 7 }

/-- The rules given, all of which match every line. -/
def envOfRules (rules : List ServiceRuleRow) : PlanEnv where
  rules := rules
  evaluate := fun _ _ => true
  directory := { personsOfRole := fun _ => [], defaultApprover := fun _ => none }
  hasAsset := fun _ => true
  collate := fun _ _ => true

def coffeeArgs : BuildAttachPlanArgs where
  bookingId := 1
  requesterPersonId := 3
  locationId := 10
  startAt := 600
  endAt := 660
  services := [coffeeLine]
  idempotencyKey := "key-1"

/-- The plan for a line, in the form the examples below are stated in. -/
def coffeePlan (rules : List ServiceRuleRow) : AttachPlan where
  anyPendingApproval := anyPendingApproval (envOfRules rules) coffeeArgs
  anyDeny := anyDeny (envOfRules rules) coffeeArgs
  denyMessages := []
  orders := [planOrder (envOfRules rules) coffeeArgs "catering"]
  assetReservations := []
  orderLineItems := [planOrderLineItem (envOfRules rules) coffeeArgs coffeeLine]
  approvals := planApprovals (envOfRules rules) coffeeArgs

/-- With an approver beside the override, the plan can be cleared. -/
theorem canBeCleared_approverRule :
    (coffeePlan [overrideRule, approverRule]).anyPendingApproval = true ∧
      CanBeCleared (envOfRules [overrideRule, approverRule]) coffeeArgs
        (coffeePlan [overrideRule, approverRule]) := by
  refine ⟨by decide, (canBeCleared_iff (by decide)).mpr ?_ (by decide) (by decide)⟩
  intro _ line hline _
  obtain rfl : line = coffeeLine := by simpa [coffeeArgs] using hline
  exact ⟨approverRule, by decide, rfl, (2, .person 7), by decide, by decide⟩

/-- With the override alone, the booking waits and nobody is asked. -/
theorem overridePlan_not_canBeCleared :
    ¬ ∀ (env : PlanEnv) (args : BuildAttachPlanArgs) (plan : AttachPlan),
      buildAttachPlan env args = .ok plan → plan.anyPendingApproval = true →
        plan.anyDeny = false → CanBeCleared env args plan := by
  intro hlaw
  have hcleared := hlaw (envOfRules [overrideRule]) coffeeArgs (coffeePlan [overrideRule])
    (by decide) (by decide) (by decide)
  exact hcleared.nonempty (by decide)

end Prequest.Orders
