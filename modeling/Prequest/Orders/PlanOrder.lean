import Prequest.Lib.FirstSeen
import Prequest.Orders.AttachPlan
import Prequest.Orders.RuleJoin

/-!
# Attach plans and the order of their inputs

A plan is hashed, so that a retry of a request is recognised. The loaders promise no
order, and the plan is sorted: lines by their client ids, orders by service type, rules
and approvers by id. Texts are compared with `localeCompare`, which may say of two
different texts that neither comes first; such lines keep the order they came in.

* `nodup_attachPlanIds`: the ids of a plan are different.
-/

namespace Prequest.Orders

open Prequest.Lib

/-! ## Approvals -/

section

variable {dir dir' : ApproverDirectory}

structure SamePersons (dir dir' : ApproverDirectory) : Prop where
  persons : ∀ roleId, (dir.personsOfRole roleId).Perm (dir'.personsOfRole roleId)
  defaults : dir'.defaultApprover = dir.defaultApprover

theorem SamePersons.resolve (h : SamePersons dir dir') (costCenterId : Option Nat)
    (target : ApproverTarget) :
    (resolveApproverTarget dir costCenterId target).Perm
      (resolveApproverTarget dir' costCenterId target) := by
  cases target with
  | person personId => exact List.Perm.refl _
  | role roleId => exact h.persons roleId
  | derived expr =>
    unfold resolveApproverTarget
    rw [h.defaults]

theorem filter_tuples (persons : List Nat) {tupleOf : Nat → ApproverTuple}
    (hperson : ∀ q, (tupleOf q).approverPersonId = q) (p : Nat) :
    (persons.map tupleOf).filter (fun t => t.approverPersonId == p) =
      List.replicate (persons.count p) (tupleOf p) := by
  have hcomp : (fun t : ApproverTuple => t.approverPersonId == p) ∘ tupleOf = fun q => q == p := by
    funext q
    rw [Function.comp_apply, hperson]
  rw [List.filter_map, hcomp, List.filter_beq, List.map_replicate]

theorem SamePersons.asked (h : SamePersons dir dir') (costCenterId : Option Nat)
    (items : List LineOutcome) (p : Nat) :
    (collectApproverTuples dir' costCenterId items).filter (fun t => t.approverPersonId == p) =
      (collectApproverTuples dir costCenterId items).filter (fun t => t.approverPersonId == p) := by
  unfold collectApproverTuples
  simp only [List.filter_flatMap]
  refine List.flatMap_congr fun item _ => List.flatMap_congr fun target _ => ?_
  rw [filter_tuples _ (fun _ => rfl), filter_tuples _ (fun _ => rfl),
    (h.resolve costCenterId target.2).count_eq]

theorem SamePersons.collect (h : SamePersons dir dir') (costCenterId : Option Nat)
    (items : List LineOutcome) :
    (collectApproverTuples dir costCenterId items).Perm
      (collectApproverTuples dir' costCenterId items) := by
  unfold collectApproverTuples
  refine List.Perm.flatMap_left _ fun item _ => List.Perm.flatMap_left _ fun target _ => ?_
  exact (h.resolve costCenterId target.2).map _

theorem approvalRowOf_congr {tuples tuples' : List ApproverTuple} {p : Nat}
    (h : tuples'.filter (fun t => t.approverPersonId == p) =
      tuples.filter fun t => t.approverPersonId == p) (idempotencyKey : String) (bookingId : Nat) :
    approvalRowOf idempotencyKey bookingId tuples' p =
      approvalRowOf idempotencyKey bookingId tuples p := by
  unfold approvalRowOf entryOf
  rw [h]

theorem SamePersons.assemblePlan (h : SamePersons dir dir') (costCenterId : Option Nat)
    (idempotencyKey : String) (bookingId : Nat) (items : List LineOutcome) :
    Orders.assemblePlan dir' costCenterId idempotencyKey bookingId items =
      Orders.assemblePlan dir costCenterId idempotencyKey bookingId items := by
  unfold Orders.assemblePlan
  have hpersons := eraseDups_perm ((h.collect costCenterId items).map ApproverTuple.approverPersonId)
  simp only [insertionSort_eq_of_perm hpersons fun _ _ _ _ => le_antisymm]
  exact List.map_congr_left fun p _ => approvalRowOf_congr (h.asked costCenterId items p) _ _

end

/-! ## Lines -/

/-- Neither text comes before the other. -/
def Ties (collate : String → String → Bool) (a b : String) : Prop :=
  collate a b = true ∧ collate b a = true

/-- `localeCompare` puts texts in order. -/
structure Collation (collate : String → String → Bool) : Prop where
  total : ∀ a b, collate a b = true ∨ collate b a = true
  trans : ∀ a b c, collate a b = true → collate b c = true → collate a c = true

section

variable {collate : String → String → Bool} {β : Type}

theorem Collation.isTotal (h : Collation collate) (key : β → String) :
    Std.Total fun a b => collate (key a) (key b) = true :=
  ⟨fun a b => h.total (key a) (key b)⟩

theorem Collation.isTrans (h : Collation collate) (key : β → String) :
    IsTrans β fun a b => collate (key a) (key b) = true :=
  ⟨fun a b c => h.trans (key a) (key b) (key c)⟩

theorem Collation.sort_perm (h : Collation collate) (key : β → String) {l l' : List β}
    (hperm : l.Perm l') (hapart : ∀ a ∈ l, ∀ b ∈ l, Ties collate (key a) (key b) → a = b) :
    l.insertionSort (fun a b => collate (key a) (key b)) =
      l'.insertionSort fun a b => collate (key a) (key b) := by
  have := h.isTotal key
  have := h.isTrans key
  exact insertionSort_eq_of_perm hperm fun a ha b hb hab hba => hapart a ha b hb ⟨hab, hba⟩

theorem Collation.eq_of_sort_eq (h : Collation collate) (key : β → String) {a b : β}
    {l l' : List β} (hties : Ties collate (key a) (key b))
    (hsort : (a :: l).insertionSort (fun a b => collate (key a) (key b)) =
      (b :: l').insertionSort fun a b => collate (key a) (key b)) : a = b := by
  have := h.isTotal key
  have := h.isTrans key
  have hheads := insertionSort_eq_iff.mp hsort a
  have hself : collate (key a) (key a) = true := (h.total (key a) (key a)).elim id id
  simp only [tiesWith] at hheads
  rw [List.filter_cons_of_pos (by simp [hself]),
    List.filter_cons_of_pos (by simp [hties.1, hties.2])] at hheads
  exact (List.cons.inj hheads).1

end

section

variable {env env' : PlanEnv} {args args' : BuildAttachPlanArgs} {line : HydratedLine}

def groupedLines (args : BuildAttachPlanArgs) : List HydratedLine :=
  (serviceTypes args).flatMap fun serviceType =>
    args.services.filter fun line => line.serviceType == serviceType

theorem planLines_eq (env : PlanEnv) (args : BuildAttachPlanArgs) :
    planLines env args =
      (groupedLines args).insertionSort fun a b => env.collate a.clientLineId b.clientLineId := rfl

theorem mem_groupedLines (env : PlanEnv) : line ∈ groupedLines args ↔ line ∈ args.services := by
  rw [← @mem_planLines env, planLines_eq, List.mem_insertionSort]

theorem serviceTypes_perm (h : args.services.Perm args'.services) :
    (serviceTypes args).Perm (serviceTypes args') :=
  eraseDups_perm (h.map HydratedLine.serviceType)

theorem groupedLines_perm (h : args.services.Perm args'.services) :
    (groupedLines args).Perm (groupedLines args') := by
  refine ((serviceTypes_perm h).flatMap_right _).trans ?_
  exact List.Perm.flatMap_left _ fun _ _ => h.filter _

variable {a : HydratedLine} {l : List HydratedLine} {ids ids' : List PlanUuid}
  {l' : List HydratedLine}

theorem groupedLines_cons (h : args.services = a :: l) : ∃ l', groupedLines args = a :: l' := by
  unfold groupedLines serviceTypes
  rw [h, List.map_cons, List.eraseDups_cons, List.flatMap_cons,
    List.filter_cons_of_pos (by simp), List.cons_append]
  exact ⟨_, rfl⟩

theorem serviceTypes_cons (h : args.services = a :: l) :
    ∃ l', serviceTypes args = a.serviceType :: l' := by
  unfold serviceTypes
  rw [h, List.map_cons, List.eraseDups_cons]
  exact ⟨_, rfl⟩

theorem eq_of_planLines_swap (env : PlanEnv) (hcollate : Collation env.collate) {b : HydratedLine}
    (ha : args.services = a :: l) (hb : args'.services = b :: l')
    (hties : Ties env.collate a.clientLineId b.clientLineId)
    (h : planLines env args = planLines env args') : a = b := by
  obtain ⟨k, hk⟩ := groupedLines_cons ha
  obtain ⟨k', hk'⟩ := groupedLines_cons hb
  rw [planLines_eq, planLines_eq, hk, hk'] at h
  exact hcollate.eq_of_sort_eq HydratedLine.clientLineId hties h

theorem eq_of_serviceTypes_swap (env : PlanEnv) (hcollate : Collation env.collate) {b : HydratedLine}
    (ha : args.services = a :: l) (hb : args'.services = b :: l')
    (hties : Ties env.collate a.serviceType b.serviceType)
    (h : (serviceTypes args).insertionSort (fun a b => env.collate a b) =
      (serviceTypes args').insertionSort fun a b => env.collate a b) :
    a.serviceType = b.serviceType := by
  obtain ⟨k, hk⟩ := serviceTypes_cons ha
  obtain ⟨k', hk'⟩ := serviceTypes_cons hb
  rw [hk, hk'] at h
  exact hcollate.eq_of_sort_eq id hties h

/-! ## The plan -/

/-- The same request, with what the loaders deliver in another order. -/
structure PlanReordered (env env' : PlanEnv) (args args' : BuildAttachPlanArgs) : Prop where
  services : args.services.Perm args'.services
  request : args' = { args with services := args'.services }
  rules : env.rules.Perm env'.rules
  evaluate : env'.evaluate = env.evaluate
  persons : SamePersons env.directory env'.directory
  assets : env'.hasAsset = env.hasAsset
  collate : env'.collate = env.collate

structure LinesAccepted (env : PlanEnv) (args : BuildAttachPlanArgs) : Prop where
  key : args.idempotencyKey ≠ ""
  given : "" ∉ args.services.map HydratedLine.clientLineId
  unique : (args.services.map HydratedLine.clientLineId).Nodup
  assets : ∀ assetId ∈ args.services.filterMap HydratedLine.linkedAssetId,
    env.hasAsset assetId = true

def attachPlanOf (env : PlanEnv) (args : BuildAttachPlanArgs) : AttachPlan where
  anyPendingApproval := anyPendingApproval env args
  anyDeny := anyDeny env args
  denyMessages :=
    if anyDeny env args then
      (planLines env args).flatMap fun line => (outcomeOf env line).denialMessages
    else []
  orders := ((serviceTypes args).insertionSort fun a b => env.collate a b).map (planOrder env args)
  assetReservations := (planLines env args).filterMap (planAssetReservation args)
  orderLineItems := (planLines env args).map (planOrderLineItem env args)
  approvals := planApprovals env args

theorem duplicateLineId_of_nodup {ids : List String} (h : ids.Nodup) : duplicateLineId ids = none := by
  induction ids with
  | nil => rfl
  | cons id ids ih =>
    obtain ⟨hfresh, hrest⟩ := List.nodup_cons.mp h
    rw [duplicateLineId, if_neg (by simpa using hfresh), ih hrest]

theorem buildAttachPlan_eq_ok {plan : AttachPlan} :
    buildAttachPlan env args = .ok plan ↔ LinesAccepted env args ∧ plan = attachPlanOf env args := by
  constructor
  · intro h
    simp only [buildAttachPlan] at h
    split at h
    · cases h
    · next hkey =>
      split at h
      · cases h
      · next hgiven =>
        split at h
        · cases h
        · next hunique =>
          split at h
          · cases h
          · next hassets =>
            refine ⟨⟨hkey, by simpa using hgiven, nodup_of_duplicateLineId hunique, ?_⟩, ?_⟩
            · intro assetId hmem
              have hfound := List.find?_eq_none.mp hassets assetId hmem
              simpa using hfound
            · exact (Except.ok.inj h).symm
  · rintro ⟨⟨hkey, hgiven, hunique, hassets⟩, rfl⟩
    have hnone : (args.services.filterMap HydratedLine.linkedAssetId).find?
        (fun id => !env.hasAsset id) = none := by
      refine List.find?_eq_none.mpr fun assetId hmem => ?_
      rw [hassets assetId hmem]
      exact Bool.false_ne_true
    simp only [buildAttachPlan, if_neg hkey, duplicateLineId_of_nodup hunique, hnone]
    rw [if_neg (by simpa using hgiven)]
    rfl

theorem PlanReordered.accepted (h : PlanReordered env env' args args')
    (haccepted : LinesAccepted env args) :
    LinesAccepted env' args' := by
  have hids := h.services.map HydratedLine.clientLineId
  refine ⟨?_, ?_, hids.nodup_iff.mp haccepted.unique, fun assetId hmem => ?_⟩
  · rw [h.request]
    exact haccepted.key
  · exact fun hmem => haccepted.given (hids.mem_iff.mpr hmem)
  · rw [h.assets]
    exact haccepted.assets assetId ((h.services.filterMap _).mem_iff.mpr hmem)

theorem PlanReordered.attachPlanOf_eq (h : PlanReordered env env' args args')
    (hrules : ∀ a ∈ env.rules, ∀ b ∈ env.rules, a.id = b.id → a = b)
    (hcollate : Collation env.collate)
    (hlines : ∀ a ∈ args.services, ∀ b ∈ args.services,
      Ties env.collate a.clientLineId b.clientLineId → a = b)
    (htypes : ∀ a ∈ args.services, ∀ b ∈ args.services,
      Ties env.collate a.serviceType b.serviceType → a.serviceType = b.serviceType) :
    attachPlanOf env' args' = attachPlanOf env args := by
  have houtcome : outcomeOf env' = outcomeOf env := by
    funext line
    unfold outcomeOf matchedRules matchAndEvaluate
    rw [h.evaluate]
    exact congrArg (fun rules => aggregateMatchedRules (rules.filter (env.evaluate line)))
      (orderedRules_perm h.rules hrules).symm
  have hplanLines : planLines env' args' = planLines env args := by
    rw [planLines_eq, planLines_eq, h.collate]
    refine (hcollate.sort_perm HydratedLine.clientLineId (groupedLines_perm h.services) ?_).symm
    intro a ha b hb
    exact hlines a ((mem_groupedLines env).mp ha) b ((mem_groupedLines env).mp hb)
  have hserviceTypes : (serviceTypes args').insertionSort (fun a b => env'.collate a b) =
      (serviceTypes args).insertionSort fun a b => env.collate a b := by
    rw [h.collate]
    refine (hcollate.sort_perm id (serviceTypes_perm h.services) ?_).symm
    intro s hs t ht hties
    obtain ⟨a, ha, rfl⟩ := List.mem_map.mp (List.mem_eraseDups.mp hs)
    obtain ⟨b, hb, rfl⟩ := List.mem_map.mp (List.mem_eraseDups.mp ht)
    exact htypes a ha b hb hties
  have hdeny : anyDeny env' args' = anyDeny env args := by
    unfold anyDeny
    rw [hplanLines, houtcome]
  have hpending : anyPendingApproval env' args' = anyPendingApproval env args := by
    unfold anyPendingApproval
    rw [hplanLines, houtcome]
  have hrequest := h.request
  have horderId : orderIdOf args' = orderIdOf args := by rw [hrequest]; rfl
  have holiId : oliIdOf args' = oliIdOf args := by rw [hrequest]; rfl
  have hreservationId : assetReservationIdOf args' = assetReservationIdOf args := by rw [hrequest]; rfl
  have horder : planOrder env' args' = planOrder env args := by
    funext serviceType
    unfold planOrder
    rw [hpending, horderId, hrequest]
  have hreservation : planAssetReservation args' = planAssetReservation args := by rw [hrequest]; rfl
  have hline : planOrderLineItem env' args' = planOrderLineItem env args := by
    funext line
    unfold planOrderLineItem setupTriggerArgs
    rw [hpending, houtcome, horderId, holiId, hreservationId, hrequest]
  have hscope : perLineApproval env' args' = perLineApproval env args := by
    funext line
    unfold perLineApproval
    rw [houtcome, horderId, holiId, hreservationId, hrequest]
  have happrovals : planApprovals env' args' = planApprovals env args := by
    unfold planApprovals
    rw [hdeny, hplanLines, hscope, h.persons.assemblePlan, hrequest]
  unfold attachPlanOf
  rw [hpending, hdeny, hplanLines, hserviceTypes, happrovals, houtcome, horder, hreservation, hline]

/-! ## Other evaluations of the rules -/

/-- The rules and the lead time of a setup that the rules ask for. -/
def plannedSetup (outcome : ServiceRuleOutcome) : Option (List Nat × Option Nat) :=
  if outcome.requiresInternalSetup then
    some (outcome.matchedRuleIds.insertionSort (· ≤ ·), outcome.internalSetupLeadTimeMinutes)
  else none

def IsDenied (env : PlanEnv) (args : BuildAttachPlanArgs) : Prop :=
  ∃ line ∈ args.services, (outcomeOf env line).effect = .deny

/-- What the rules say about the lines leads to the same denial, approvals and setup. -/
structure PlannedAlike (env env' : PlanEnv) (args : BuildAttachPlanArgs) : Prop where
  denied : IsDenied env' args ↔ IsDenied env args
  messages : IsDenied env args →
    ((planLines env args).flatMap fun line => (outcomeOf env' line).denialMessages) =
      (planLines env args).flatMap fun line => (outcomeOf env line).denialMessages
  pending : (∃ line ∈ args.services, (outcomeOf env' line).pending = true) ↔
    ∃ line ∈ args.services, (outcomeOf env line).pending = true
  setup : ∀ line ∈ args.services,
    plannedSetup (outcomeOf env' line) = plannedSetup (outcomeOf env line)
  approvals : ¬IsDenied env args →
    assemblePlan env.directory args.costCenterId args.idempotencyKey args.bookingId
        ((planLines env args).map (perLineApproval env' args)) =
      assemblePlan env.directory args.costCenterId args.idempotencyKey args.bookingId
        ((planLines env args).map (perLineApproval env args))

theorem anyDeny_eq_true : anyDeny env args = true ↔ IsDenied env args := by
  simp only [anyDeny, IsDenied, List.any_eq_true, beq_iff_eq, mem_planLines]

theorem planOrderLineItem_eq_iff
    (hpending : anyPendingApproval env' args = anyPendingApproval env args) :
    planOrderLineItem env' args line = planOrderLineItem env args line ↔
      plannedSetup (outcomeOf env' line) = plannedSetup (outcomeOf env line) := by
  have hlead : Function.Injective (Option.map Int.ofNat) :=
    Option.map_injective fun _ _ => Int.ofNat.inj
  unfold planOrderLineItem setupTriggerArgs plannedSetup
  rw [hpending]
  cases anyPendingApproval env args <;> cases (outcomeOf env' line).requiresInternalSetup <;>
    cases (outcomeOf env line).requiresInternalSetup <;> simp [hlead.eq_iff]

/-- Two evaluations of the rules plan alike exactly when they lead to the same. -/
theorem attachPlanOf_eq_iff (evaluate : HydratedLine → ServiceRuleRow → Bool) :
    attachPlanOf { env with evaluate := evaluate } args = attachPlanOf env args ↔
      PlannedAlike env { env with evaluate := evaluate } args := by
  have hdenied : (anyDeny { env with evaluate := evaluate } args = anyDeny env args) ↔
      (IsDenied { env with evaluate := evaluate } args ↔ IsDenied env args) := by
    rw [Bool.eq_iff_iff, anyDeny_eq_true, anyDeny_eq_true]
  have hpending : (anyPendingApproval { env with evaluate := evaluate } args =
      anyPendingApproval env args) ↔ _ :=
    Bool.eq_iff_iff.trans (iff_congr anyPendingApproval_eq_true anyPendingApproval_eq_true)
  constructor
  · intro h
    have hdeny : anyDeny { env with evaluate := evaluate } args = anyDeny env args :=
      congrArg AttachPlan.anyDeny h
    have hwaits : anyPendingApproval { env with evaluate := evaluate } args =
      anyPendingApproval env args := congrArg AttachPlan.anyPendingApproval h
    refine ⟨hdenied.mp hdeny, fun hden => ?_, hpending.mp hwaits, fun line hline => ?_,
      fun hnot => ?_⟩
    · have hmessages := congrArg AttachPlan.denyMessages h
      simp only [attachPlanOf, hdeny, anyDeny_eq_true.mpr hden, if_true] at hmessages
      exact hmessages
    · refine (planOrderLineItem_eq_iff hwaits).mp ?_
      exact List.map_inj_left.mp (congrArg AttachPlan.orderLineItems h) line (mem_planLines.mpr hline)
    · have happrovals := congrArg AttachPlan.approvals h
      have hno : anyDeny env args = false :=
        Bool.eq_false_iff.mpr fun htrue => hnot (anyDeny_eq_true.mp htrue)
      simp only [attachPlanOf, planApprovals, hdeny, hno, Bool.false_eq_true, if_false] at happrovals
      exact happrovals
  · intro h
    have hdeny := hdenied.mpr h.denied
    have hwaits := hpending.mpr h.pending
    have horder : planOrder { env with evaluate := evaluate } args = planOrder env args := by
      funext serviceType
      unfold planOrder
      rw [hwaits]
    have hlines : (planLines env args).map (planOrderLineItem { env with evaluate := evaluate } args) =
        (planLines env args).map (planOrderLineItem env args) :=
      List.map_congr_left fun line hline =>
        (planOrderLineItem_eq_iff hwaits).mpr (h.setup line (mem_planLines.mp hline))
    unfold attachPlanOf planApprovals
    rw [hdeny, hwaits, horder]
    show AttachPlan.mk .. = AttachPlan.mk ..
    congr 1
    · by_cases hden : IsDenied env args
      · rw [if_pos (anyDeny_eq_true.mpr hden), if_pos (anyDeny_eq_true.mpr hden)]
        exact h.messages hden
      · rw [if_neg (mt anyDeny_eq_true.mp hden), if_neg (mt anyDeny_eq_true.mp hden)]
    · by_cases hden : IsDenied env args
      · rw [if_pos (anyDeny_eq_true.mpr hden), if_pos (anyDeny_eq_true.mpr hden)]
      · rw [if_neg (mt anyDeny_eq_true.mp hden), if_neg (mt anyDeny_eq_true.mp hden)]
        exact h.approvals hden

/-! ## Ids -/

def attachPlanIds (plan : AttachPlan) : List PlanUuid :=
  plan.orders.map AttachPlanOrder.id ++ plan.assetReservations.map AttachPlanAssetReservation.id ++
    plan.orderLineItems.map AttachPlanOrderLineItem.id ++ plan.approvals.map AttachPlanApproval.id

def PlanUuid.table : PlanUuid → Nat
  | .booking _ => 0
  | .slot _ _ => 1
  | .order _ _ => 2
  | .assetReservation _ _ _ => 3
  | .oli _ _ _ => 4
  | .approval _ _ => 5
  | .approvalChain _ => 6

theorem nodup_append_of_table {n : Nat} (h : ids.Nodup) (h' : ids'.Nodup)
    (hof : ∀ id ∈ ids, id.table < n) (hof' : ∀ id ∈ ids', id.table = n) : (ids ++ ids').Nodup := by
  refine h.append h' fun id hid hid' => ?_
  have hlt := hof id hid
  rw [hof' id hid'] at hlt
  exact Nat.lt_irrefl n hlt

theorem table_lt_of_append {n m : Nat} (hof : ∀ id ∈ ids, id.table < n)
    (hof' : ∀ id ∈ ids', id.table = n) (hlt : n < m) : ∀ id ∈ ids ++ ids', id.table < m := by
  intro id hid
  rcases List.mem_append.mp hid with hid | hid
  · exact (hof id hid).trans hlt
  · rw [hof' id hid]
    exact hlt

theorem nodup_planLines (env : PlanEnv)
    (hunique : (args.services.map HydratedLine.clientLineId).Nodup) :
    ((planLines env args).map HydratedLine.clientLineId).Nodup := by
  have hservices : args.services.Nodup := hunique.of_map _
  have hgrouped : (groupedLines args).Nodup := by
    refine List.nodup_flatMap.mpr ⟨fun _ _ => hservices.filter _, ?_⟩
    refine (nodup_eraseDups _).imp fun {s t} hne line hs ht => hne ?_
    exact (beq_iff_eq.mp (List.mem_filter.mp hs).2).symm.trans (beq_iff_eq.mp (List.mem_filter.mp ht).2)
  have hperm : (planLines env args).Perm args.services := by
    refine (List.perm_insertionSort _ _).trans ?_
    exact (List.perm_ext_iff_of_nodup hgrouped hservices).mpr fun _ => mem_groupedLines env
  exact ((hperm.map HydratedLine.clientLineId).nodup_iff).mpr hunique

theorem planAssetReservation_eq_some {row : AttachPlanAssetReservation}
    (h : planAssetReservation args line = some row) :
    row.id = .assetReservation args.idempotencyKey (orderIdOf args line.serviceType)
      line.clientLineId := by
  unfold planAssetReservation assetReservationIdOf at h
  cases hasset : line.linkedAssetId with
  | none => simp [hasset] at h
  | some assetId =>
    simp only [hasset, Option.map_some, Option.some.injEq] at h
    rw [← h]

section Rows

variable (env : PlanEnv)

theorem nodup_orderIds : ((attachPlanOf env args).orders.map AttachPlanOrder.id).Nodup := by
  have htypes : ((serviceTypes args).insertionSort fun a b => env.collate a b).Nodup :=
    (List.perm_insertionSort _ _).nodup_iff.mpr (nodup_eraseDups _)
  unfold attachPlanOf
  rw [List.map_map]
  exact htypes.map fun s t h => (PlanUuid.order.inj h).2

theorem nodup_assetReservationIds
    (hunique : (args.services.map HydratedLine.clientLineId).Nodup) :
    ((attachPlanOf env args).assetReservations.map AttachPlanAssetReservation.id).Nodup := by
  refine List.pairwise_map.mpr ?_
  refine List.Pairwise.filterMap _ ?_ (List.pairwise_map.mp (nodup_planLines env hunique))
  intro a b hne row hrow row' hrow' heq
  rw [planAssetReservation_eq_some hrow, planAssetReservation_eq_some hrow'] at heq
  exact hne (PlanUuid.assetReservation.inj heq).2.2

theorem nodup_orderLineItemIds
    (hunique : (args.services.map HydratedLine.clientLineId).Nodup) :
    ((attachPlanOf env args).orderLineItems.map AttachPlanOrderLineItem.id).Nodup := by
  unfold attachPlanOf
  rw [List.map_map]
  refine List.pairwise_map.mpr ((List.pairwise_map.mp (nodup_planLines env hunique)).imp ?_)
  exact fun hne heq => hne (PlanUuid.oli.inj heq).2.2

theorem nodup_approvalIds : ((attachPlanOf env args).approvals.map AttachPlanApproval.id).Nodup := by
  unfold attachPlanOf planApprovals
  split
  · exact List.nodup_nil
  · unfold assemblePlan
    rw [List.map_map]
    refine List.Nodup.map (fun p q h => (PlanUuid.approval.inj h).2) ?_
    exact (List.perm_insertionSort _ _).nodup_iff.mpr (nodup_eraseDups _)

theorem nodup_attachPlanIds (hunique : (args.services.map HydratedLine.clientLineId).Nodup) :
    (attachPlanIds (attachPlanOf env args)).Nodup ∧
      ∀ id ∈ attachPlanIds (attachPlanOf env args), 1 < id.table := by
  have horders : ∀ id ∈ (attachPlanOf env args).orders.map AttachPlanOrder.id, id.table = 2 := by
    intro id hid
    obtain ⟨order, horder, rfl⟩ := List.mem_map.mp hid
    obtain ⟨serviceType, _, rfl⟩ := List.mem_map.mp horder
    rfl
  have hreservations : ∀ id ∈ (attachPlanOf env args).assetReservations.map
      AttachPlanAssetReservation.id, id.table = 3 := by
    intro id hid
    obtain ⟨row, hrow, rfl⟩ := List.mem_map.mp hid
    obtain ⟨line, _, hline⟩ := List.mem_filterMap.mp hrow
    rw [planAssetReservation_eq_some hline]
    rfl
  have holis : ∀ id ∈ (attachPlanOf env args).orderLineItems.map AttachPlanOrderLineItem.id,
      id.table = 4 := by
    intro id hid
    obtain ⟨oli, holi, rfl⟩ := List.mem_map.mp hid
    obtain ⟨line, _, rfl⟩ := List.mem_map.mp holi
    rfl
  have happrovals : ∀ id ∈ (attachPlanOf env args).approvals.map AttachPlanApproval.id,
      id.table = 5 := by
    intro id hid
    obtain ⟨approval, happroval, rfl⟩ := List.mem_map.mp hid
    unfold attachPlanOf planApprovals at happroval
    split at happroval
    · cases happroval
    · obtain ⟨p, _, rfl⟩ := List.mem_map.mp happroval
      rfl
  have hlt : ∀ id ∈ (attachPlanOf env args).orders.map AttachPlanOrder.id, id.table < 3 :=
    fun id hid => (horders id hid).trans_lt (by decide)
  have hlt' := table_lt_of_append hlt hreservations (m := 4) (by decide)
  have hlt'' := table_lt_of_append hlt' holis (m := 5) (by decide)
  constructor
  · refine nodup_append_of_table (nodup_append_of_table (nodup_append_of_table (nodup_orderIds env)
      (nodup_assetReservationIds env hunique) hlt hreservations)
      (nodup_orderLineItemIds env hunique) hlt' holis) (nodup_approvalIds env) hlt'' happrovals
  · intro id hid
    unfold attachPlanIds at hid
    rcases List.mem_append.mp hid with hid | hid
    · rcases List.mem_append.mp hid with hid | hid
      · rcases List.mem_append.mp hid with hid | hid
        · rw [horders id hid]
          decide
        · rw [hreservations id hid]
          decide
      · rw [holis id hid]
        decide
    · rw [happrovals id hid]
      decide

end Rows

end

end Prequest.Orders
