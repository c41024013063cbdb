import Prequest.Maintenance.PmGenerator

/-!
# One run of the generator

* `inv_generateForTenant`: it holds at the end of a run.
* `generateForTenant_ends`: the loop comes to its end.
-/

namespace Prequest.Maintenance

open Prequest.Lib Prequest.Lib.Calendar Prequest.Shared

variable {db : PmDb} {faults : PmFaults} {plan : MaintenancePlan} {assetId : Nat}
  {targets : List Nat}

def requestTypeActive (db : PmDb) (plan : MaintenancePlan) : Bool :=
  (db.requestTypes.get? plan.requestTypeId).any (·.active)

def assetSucceeds (db : PmDb) (faults : PmFaults) (plan : MaintenancePlan) (assetId : Nat) : Bool :=
  !faults.rpc plan.id assetId && requestTypeActive db plan

/-- No call fails for the plan, and its next run has a valid date. -/
def succeeds (db : PmDb) (faults : PmFaults) (plan : MaintenancePlan) : Bool :=
  match resolveTargets db faults plan with
  | none => false
  | some targets =>
      targets.all (assetSucceeds db faults plan) && plan.cadence.fits plan.nextRunAt &&
        !faults.update plan.id

/-- The assets of a plan that are in service. -/
def planAssets (db : PmDb) (plan : MaintenancePlan) : List Nat :=
  match plan.target with
  | .asset assetId =>
      match db.assets.get? assetId with
      | none => []
      | some asset => if asset.lifecycleState.inService then [assetId] else []
  | .assetType assetTypeId => assetsOfType db assetTypeId

/-! ## One asset -/

theorem resolveTargets_eq_page (h : resolveTargets db faults plan = some targets) :
    targets = page (planAssets db plan) := by
  unfold resolveTargets at h
  unfold planAssets
  split at h
  · cases h
  cases htarget : plan.target with
  | asset assetId =>
    simp only [htarget] at h ⊢
    cases hasset : db.assets.get? assetId with
    | none =>
      simp only [hasset, Option.some.injEq] at h
      exact h.symm
    | some asset =>
      simp only [hasset, Option.some.injEq] at h
      rw [← h]
      dsimp only
      split <;> rfl
  | assetType assetTypeId =>
    simp only [htarget, Option.some.injEq] at h
    exact h.symm

theorem inService_of_mem_resolveTargets (h : resolveTargets db faults plan = some targets)
    (hmem : assetId ∈ targets) :
    ∃ asset, db.assets.get? assetId = some asset ∧ asset.lifecycleState.inService = true := by
  unfold resolveTargets at h
  split at h
  · cases h
  · split at h
    · split at h
      · obtain rfl := Option.some.inj h
        cases hmem
      · rename_i asset hasset
        obtain rfl := Option.some.inj h
        split at hmem
        · rename_i hin
          rw [List.mem_singleton] at hmem
          exact ⟨asset, hmem ▸ hasset, hin⟩
        · cases hmem
    · obtain rfl := Option.some.inj h
      have hmem := mem_of_mem_page hmem
      unfold assetsOfType at hmem
      rw [List.mem_insertionSort] at hmem
      obtain ⟨asset, hasset, rfl⟩ := List.mem_map.mp hmem
      rw [List.mem_filter, Bool.and_eq_true] at hasset
      exact ⟨asset, Table.get?_of_mem hasset.1, hasset.2.2⟩

/-- The function of the database puts the work order of the occurrence, or raises because of the
request type. -/
theorem createPmWorkOrder_eq {asset : PmAsset} (runAt : Int)
    (hplan : db.plans.get? plan.id = some plan) (hactive : plan.active = true)
    (hasset : db.assets.get? assetId = some asset)
    (hin : asset.lifecycleState.inService = true) :
    (requestTypeActive db plan = false ∧
        ∃ error, createPmWorkOrder db plan.id assetId runAt = .error error) ∨
      (requestTypeActive db plan = true ∧ ∃ workOrder made,
        key workOrder = (plan.id, assetId, runAt) ∧
          createPmWorkOrder db plan.id assetId runAt =
            .ok (made, { db with workOrders := db.workOrders.put workOrder })) := by
  unfold createPmWorkOrder requestTypeActive
  simp only [hplan, hactive, hasset, hin, Bool.not_true, Bool.false_eq_true, if_false]
  cases hrequest : db.requestTypes.get? plan.requestTypeId with
  | none => exact .inl ⟨rfl, _, rfl⟩
  | some requestType =>
    cases hrt : requestType.active with
    | false =>
      refine .inl ⟨hrt, "create_pm_work_order.request_type_inactive", ?_⟩
      simp only [hrt, Bool.not_false, if_true]
    | true =>
      refine .inr ⟨hrt, ?_⟩
      simp only [hrt, Bool.not_true, Bool.false_eq_true, if_false]
      obtain ⟨workOrder, hworkOrder⟩ : ∃ workOrder : PmWorkOrder, workOrder =
          { maintenancePlanId := plan.id
            sourceAssetId := assetId
            plannedStartAt := runAt
            ticketTypeId := plan.requestTypeId
            locationId := plan.locationId.or asset.assignedSpaceId
            slaId := requestType.slaPolicyId } := ⟨_, rfl⟩
      rw [← hworkOrder]
      refine ⟨workOrder, (db.workOrders.insert? workOrder).map fun _ => workOrder,
        by rw [hworkOrder]; rfl, ?_⟩
      unfold Table.put
      cases db.workOrders.insert? workOrder with
      | none => rfl
      | some workOrders => rfl

structure AssetsDone (db : PmDb) (faults : PmFaults) (plan : MaintenancePlan) (done : List Nat)
    (s : PlanRun) : Prop where
  plans : s.db.plans = db.plans
  assets : s.db.assets = db.assets
  requestTypes : s.db.requestTypes = db.requestTypes
  kept : ∀ k workOrder, db.workOrders.get? k = some workOrder →
    s.db.workOrders.get? k = some workOrder
  made : ∀ k workOrder, s.db.workOrders.get? k = some workOrder →
    db.workOrders.get? k = some workOrder ∨
      ∃ assetId ∈ done, k = (plan.id, assetId, plan.nextRunAt)
  there : ∀ assetId ∈ done, assetSucceeds db faults plan assetId = true →
    ∃ workOrder, s.db.workOrders.get? (plan.id, assetId, plan.nextRunAt) = some workOrder
  succeeded : s.allAssetsSucceeded = done.all (assetSucceeds db faults plan)

structure InService (db : PmDb) (plan : MaintenancePlan) (assetId : Nat) : Prop where
  found : db.plans.get? plan.id = some plan
  active : plan.active = true
  asset : ∃ asset, db.assets.get? assetId = some asset ∧ asset.lifecycleState.inService = true

theorem generateForAsset_spec {done : List Nat} {s : PlanRun} (h : AssetsDone db faults plan done s)
    (hin : InService db plan assetId) :
    AssetsDone db faults plan (done ++ [assetId]) (generateForAsset faults plan s assetId) := by
  have hfails : assetSucceeds db faults plan assetId = false →
      AssetsDone db faults plan (done ++ [assetId])
        { s with failed := s.failed + 1, allAssetsSucceeded := false } := by
    intro hfail
    refine ⟨h.plans, h.assets, h.requestTypes, h.kept, fun k workOrder hfound => ?_,
      fun a ha hsucceeds => ?_, ?_⟩
    · rcases h.made k workOrder hfound with hold | ⟨a, ha, hk⟩
      · exact .inl hold
      · exact .inr ⟨a, List.mem_append_left _ ha, hk⟩
    · rcases List.mem_append.mp ha with hold | hnew
      · exact h.there a hold hsucceeds
      · rw [List.mem_singleton.mp hnew, hfail] at hsucceeds
        cases hsucceeds
    · rw [List.all_append, List.all_cons, hfail, Bool.false_and, Bool.and_false]
  obtain ⟨asset, hasset, hservice⟩ := hin.asset
  unfold generateForAsset
  cases hrpc : faults.rpc plan.id assetId with
  | true => exact hfails (by simp [assetSucceeds, hrpc])
  | false =>
    rw [if_neg Bool.false_ne_true]
    have hplan : s.db.plans.get? plan.id = some plan := h.plans ▸ hin.found
    have hactive : requestTypeActive s.db plan = requestTypeActive db plan := by
      unfold requestTypeActive
      rw [h.requestTypes]
    rcases createPmWorkOrder_eq plan.nextRunAt hplan hin.active (h.assets ▸ hasset) hservice with
      ⟨hinactive, error, hcreate⟩ | ⟨hok, workOrder, made, hkey, hcreate⟩
    · rw [hcreate]
      exact hfails (by simp [assetSucceeds, ← hactive, hinactive])
    · rw [hcreate]
      have hsucceeds : assetSucceeds db faults plan assetId = true := by
        simp [assetSucceeds, ← hactive, hok, hrpc]
      refine ⟨h.plans, h.assets, h.requestTypes,
        fun k old hold => Table.get?_put_of_some (h.kept k old hold),
        fun k found hfound => ?_, fun a ha ha' => ?_, ?_⟩
      · have hput : (s.db.workOrders.putAll [workOrder]).get? k = some found := hfound
        rcases Table.mem_of_get?_putAll hput with hold | hnew
        · rcases h.made k found hold with hold | ⟨a, ha, hk⟩
          · exact .inl hold
          · exact .inr ⟨a, List.mem_append_left _ ha, hk⟩
        · rw [List.mem_singleton.mp hnew] at hfound
          have hk := (Table.get?_eq_some.mp hfound).2
          exact .inr ⟨assetId, List.mem_append_right _ (List.mem_singleton_self _),
            hk.symm.trans hkey⟩
      · rcases List.mem_append.mp ha with hold | hnew
        · obtain ⟨found, hfound⟩ := h.there a hold ha'
          exact ⟨found, Table.get?_put_of_some hfound⟩
        · obtain ⟨found, hfound⟩ := Table.get?_putAll_of_mem (t := s.db.workOrders)
            (List.mem_singleton_self workOrder)
          rw [hkey] at hfound
          rw [List.mem_singleton.mp hnew]
          exact ⟨found, hfound⟩
      · rw [List.all_append, List.all_cons, hsucceeds, ← h.succeeded]
        simp

theorem generateForAssets_spec {done : List Nat} {s : PlanRun}
    (h : AssetsDone db faults plan done s) (hin : ∀ a ∈ targets, InService db plan a) :
    AssetsDone db faults plan (done ++ targets)
      (targets.foldl (generateForAsset faults plan) s) := by
  induction targets generalizing done s with
  | nil => rwa [List.append_nil]
  | cons assetId targets ih =>
    have hstep := generateForAsset_spec h (hin assetId List.mem_cons_self)
    have hrest := ih hstep fun a ha => hin a (List.mem_cons_of_mem assetId ha)
    rwa [List.append_assoc] at hrest

theorem assetsDone_nil : AssetsDone db faults plan [] { db := db } where
  plans := rfl
  assets := rfl
  requestTypes := rfl
  kept _ _ h := h
  made _ _ h := .inl h
  there _ h := nomatch h
  succeeded := rfl

/-! ## One plan -/

def MaintenancePlan.atNextRun (plan : MaintenancePlan) : MaintenancePlan :=
  { plan with nextRunAt := plan.cadence.step plan.nextRunAt }

def moveOn : Table.Assignment MaintenancePlan where
  apply := MaintenancePlan.atNextRun
  key_apply _ := rfl

/-- What one plan does to the tables. -/
structure PlanDone (db : PmDb) (faults : PmFaults) (plan : MaintenancePlan) (db' : PmDb) : Prop where
  plans : db'.plans =
    if succeeds db faults plan then db.plans.update (fun p => p.id == plan.id) moveOn else db.plans
  assets : db'.assets = db.assets
  requestTypes : db'.requestTypes = db.requestTypes
  kept : ∀ k workOrder, db.workOrders.get? k = some workOrder →
    db'.workOrders.get? k = some workOrder
  made : ∀ k workOrder, db'.workOrders.get? k = some workOrder →
    db.workOrders.get? k = some workOrder ∨
      ∃ targets, resolveTargets db faults plan = some targets ∧
        ∃ assetId ∈ targets, k = (plan.id, assetId, plan.nextRunAt)
  there : succeeds db faults plan = true → ∀ targets, resolveTargets db faults plan = some targets →
    ∀ assetId ∈ targets, ∃ workOrder,
      db'.workOrders.get? (plan.id, assetId, plan.nextRunAt) = some workOrder

theorem advancePlan_eq (hplan : db.plans.get? plan.id = some plan) :
    advancePlan db faults plan =
      if plan.cadence.fits plan.nextRunAt && !faults.update plan.id then
        some { db with plans := db.plans.update (fun p => p.id == plan.id) moveOn }
      else none := by
  unfold advancePlan
  rw [advance_some]
  cases hfits : plan.cadence.fits plan.nextRunAt with
  | false => rfl
  | true =>
    cases hupdate : faults.update plan.id with
    | true => rfl
    | false =>
      simp only [if_true, Bool.false_eq_true, if_false, Bool.not_false, Bool.and_self]
      -- The row that is updated is the one that was read.
      have hsame : db.plans.update (fun p => p.id == plan.id)
            (setNextRunAt (plan.cadence.step plan.nextRunAt)) =
          db.plans.update (fun p => p.id == plan.id) moveOn := by
        apply Table.ext
        refine List.map_congr_left fun p hp => ?_
        unfold Table.updated
        split
        · rename_i hid
          have hplan := Table.get?_eq_some.mp hplan
          obtain rfl := db.plans.eq_of_key_eq hp hplan.1 (beq_iff_eq.mp hid)
          rfl
        · rfl
      rw [hsame]

theorem generateForPlan_spec (hplan : db.plans.get? plan.id = some plan)
    (hactive : plan.active = true) :
    PlanDone db faults plan (generateForPlan db faults plan).db := by
  unfold generateForPlan
  cases htargets : resolveTargets db faults plan with
  | none =>
    have hfail : succeeds db faults plan = false := by
      unfold succeeds
      rw [htargets]
    refine ⟨by rw [hfail]; rfl, rfl, rfl, fun _ _ h => h, fun _ _ h => .inl h, ?_⟩
    rw [hfail]
    nofun
  | some targets =>
    have hdone : AssetsDone db faults plan targets
        (targets.foldl (generateForAsset faults plan) { db := db }) :=
      generateForAssets_spec assetsDone_nil fun a ha =>
        ⟨hplan, hactive, inService_of_mem_resolveTargets htargets ha⟩
    dsimp only
    generalize targets.foldl (generateForAsset faults plan) { db := db } = s at hdone ⊢
    have hsucceeds : succeeds db faults plan =
        (s.allAssetsSucceeded && (plan.cadence.fits plan.nextRunAt && !faults.update plan.id)) := by
      unfold succeeds
      rw [htargets, hdone.succeeded]
      exact Bool.and_assoc _ _ _
    have hmade : ∀ k workOrder, s.db.workOrders.get? k = some workOrder →
        db.workOrders.get? k = some workOrder ∨
          ∃ found, some targets = some found ∧
            ∃ assetId ∈ found, k = (plan.id, assetId, plan.nextRunAt) := by
      intro k workOrder hfound
      rcases hdone.made k workOrder hfound with hold | hnew
      · exact .inl hold
      · exact .inr ⟨targets, rfl, hnew⟩
    rw [advancePlan_eq (hdone.plans ▸ hplan)]
    cases hassets : s.allAssetsSucceeded with
    | false =>
      rw [hassets, Bool.false_and] at hsucceeds
      refine ⟨by rw [hsucceeds]; exact hdone.plans, hdone.assets, hdone.requestTypes,
        hdone.kept, by rwa [htargets], ?_⟩
      rw [hsucceeds]
      nofun
    | true =>
      rw [hassets, Bool.true_and] at hsucceeds
      rw [← hsucceeds]
      cases hadvance : succeeds db faults plan with
      | false =>
        refine ⟨by rw [hadvance]; exact hdone.plans, hdone.assets, hdone.requestTypes,
          hdone.kept, by rwa [htargets], ?_⟩
        rw [hadvance]
        nofun
      | true =>
        refine ⟨by rw [hadvance]; exact congrArg (Table.update · _ moveOn) hdone.plans,
          hdone.assets, hdone.requestTypes, hdone.kept, by rwa [htargets], ?_⟩
        intro _ found hfound a ha
        obtain rfl := Option.some.inj (htargets.symm.trans hfound)
        exact hdone.there a ha (List.all_eq_true.mp (hdone.succeeded ▸ hassets) a ha)

/-! ## A tenant -/

/-- The plans after those that were seen have succeeded or failed. -/
def plansAfter (db : PmDb) (faults : PmFaults) (seen : List Nat) : Table MaintenancePlan :=
  db.plans.update (fun p => seen.contains p.id && succeeds db faults p) moveOn

theorem plansAfter_cons {seen : List Nat} (hplan : plan ∈ db.plans.rows) (hseen : plan.id ∉ seen) :
    (if succeeds db faults plan then
        (plansAfter db faults seen).update (fun p => p.id == plan.id) moveOn
      else plansAfter db faults seen) = plansAfter db faults (plan.id :: seen) := by
  have hother : ∀ p ∈ db.plans.rows, p.id ≠ plan.id →
      ((plan.id :: seen).contains p.id && succeeds db faults p) =
        (seen.contains p.id && succeeds db faults p) := by
    intro p _ hid
    simp [hid]
  unfold plansAfter
  cases hsucceeds : succeeds db faults plan with
  | true =>
    rw [if_pos rfl]
    apply Table.ext
    show (db.plans.rows.map _).map _ = db.plans.rows.map _
    rw [List.map_map]
    refine List.map_congr_left fun p hp => ?_
    show Table.updated (fun p => p.id == plan.id) moveOn (Table.updated
        (fun p => seen.contains p.id && succeeds db faults p) moveOn p) =
      Table.updated (fun p => (plan.id :: seen).contains p.id && succeeds db faults p) moveOn p
    by_cases hid : p.id = plan.id
    · obtain rfl := db.plans.eq_of_key_eq hp hplan hid
      have hbefore : (seen.contains p.id && succeeds db faults p) = false := by
        simp [hseen]
      rw [Table.updated_of_false (p := fun p => seen.contains p.id && succeeds db faults p) hbefore,
        Table.updated_of_true (p := fun q : MaintenancePlan => q.id == p.id)
          (beq_self_eq_true p.id), Table.updated_of_true]
      rw [hsucceeds, Bool.and_true, List.contains_iff_mem]
      exact List.mem_cons_self
    · rw [Table.updated_of_false (p := fun p : MaintenancePlan => p.id == plan.id)]
      · exact congrArg (fun b : Bool => if b then moveOn.apply p else p) (hother p hp hid).symm
      · have hkey := Table.key_updated
          (fun p => seen.contains p.id && succeeds db faults p) moveOn p
        exact beq_eq_false_iff_ne.mpr fun h => hid (hkey.symm.trans h)
  | false =>
    rw [if_neg Bool.false_ne_true]
    refine Table.update_congr fun p hp => ?_
    by_cases hid : p.id = plan.id
    · obtain rfl := db.plans.eq_of_key_eq hp hplan hid
      rw [hsucceeds, Bool.and_false, Bool.and_false]
    · exact (hother p hp hid).symm

structure Due (db : PmDb) (runAt : Int) (plan : MaintenancePlan) : Prop where
  mem : plan ∈ db.plans.rows
  active : plan.active = true
  due : isDueWithLeadDays runAt plan = true

/-- What a run has done to the tables, by the plans that it has seen. -/
structure RunInv (db : PmDb) (faults : PmFaults) (runAt : Int) (s : TenantRun) : Prop where
  plans : s.db.plans = plansAfter db faults s.seenPlanIds
  assets : s.db.assets = db.assets
  requestTypes : s.db.requestTypes = db.requestTypes
  nodup : s.seenPlanIds.Nodup
  seen : ∀ id ∈ s.seenPlanIds, ∃ p, Due db runAt p ∧ p.id = id
  kept : ∀ k workOrder, db.workOrders.get? k = some workOrder →
    s.db.workOrders.get? k = some workOrder
  made : ∀ k workOrder, s.db.workOrders.get? k = some workOrder →
    db.workOrders.get? k = some workOrder ∨
      ∃ p ∈ db.plans.rows, p.id ∈ s.seenPlanIds ∧
        ∃ targets, resolveTargets db faults p = some targets ∧
          ∃ assetId ∈ targets, k = (p.id, assetId, p.nextRunAt)
  there : ∀ p ∈ db.plans.rows, p.id ∈ s.seenPlanIds → succeeds db faults p = true →
    ∀ targets, resolveTargets db faults p = some targets →
      ∀ assetId ∈ targets, ∃ workOrder,
        s.db.workOrders.get? (p.id, assetId, p.nextRunAt) = some workOrder

variable {runAt : Int} {s : TenantRun} {batchSize : Nat}

variable (db faults runAt) in
theorem inv_start : RunInv db faults runAt { db := db } where
  plans := (Table.update_eq_self fun _ _ => rfl).symm
  assets := rfl
  requestTypes := rfl
  nodup := List.nodup_nil
  seen _ h := nomatch h
  kept _ _ h := h
  made _ _ h := .inl h
  there _ _ h := nomatch h

theorem RunInv.resolveTargets (h : RunInv db faults runAt s) (p : MaintenancePlan) :
    resolveTargets s.db faults p = Maintenance.resolveTargets db faults p := by
  unfold Maintenance.resolveTargets assetsOfType
  rw [h.assets]

theorem RunInv.succeeds (h : RunInv db faults runAt s) (p : MaintenancePlan) :
    succeeds s.db faults p = Maintenance.succeeds db faults p := by
  unfold Maintenance.succeeds assetSucceeds requestTypeActive
  rw [h.resolveTargets, h.requestTypes]

variable {p : MaintenancePlan}

theorem RunInv.unseen (h : RunInv db faults runAt s)
    (hseen : p.id ∉ s.seenPlanIds) : p ∈ s.db.plans.rows ↔ p ∈ db.plans.rows := by
  rw [h.plans]
  unfold plansAfter
  rw [Table.mem_update_iff]
  constructor
  · rintro ⟨q, hq, ⟨hmoved, rfl⟩ | ⟨_, rfl⟩⟩
    · rw [Bool.and_eq_true, List.contains_iff_mem] at hmoved
      exact absurd hmoved.1 hseen
    · exact hq
  · intro hp
    refine ⟨p, hp, .inr ⟨?_, rfl⟩⟩
    simp [hseen]

theorem RunInv.generatePlan (h : RunInv db faults runAt s) (hdue : Due db runAt plan)
    (hseen : plan.id ∉ s.seenPlanIds) : RunInv db faults runAt (generatePlan faults s plan) := by
  have hdone : PlanDone s.db faults plan (generateForPlan s.db faults plan).db :=
    generateForPlan_spec (Table.get?_of_mem ((h.unseen hseen).mpr hdue.mem)) hdue.active
  refine ⟨?_, hdone.assets.trans h.assets, hdone.requestTypes.trans h.requestTypes,
    List.nodup_cons.mpr ⟨hseen, h.nodup⟩, fun id hid => ?_, fun k old hold => ?_,
    fun k found hfound => ?_, fun p hp hpSeen hsucceeds targets htargets a ha => ?_⟩
  · rw [Maintenance.generatePlan, hdone.plans, h.succeeds, h.plans]
    exact plansAfter_cons hdue.mem hseen
  · rcases List.mem_cons.mp hid with rfl | hold
    · exact ⟨plan, hdue, rfl⟩
    · exact h.seen id hold
  · exact hdone.kept k old (h.kept k old hold)
  · rcases hdone.made k found hfound with hold | ⟨targets, htargets, hnew⟩
    · rcases h.made k found hold with hold | ⟨p, hp, hpSeen, hnew⟩
      · exact .inl hold
      · exact .inr ⟨p, hp, List.mem_cons_of_mem _ hpSeen, hnew⟩
    · rw [h.resolveTargets] at htargets
      exact .inr ⟨plan, hdue.mem, List.mem_cons_self, targets, htargets, hnew⟩
  · rcases List.mem_cons.mp hpSeen with hid | hold
    · obtain rfl := db.plans.eq_of_key_eq hp hdue.mem hid
      exact hdone.there (by rwa [h.succeeds]) targets (by rwa [h.resolveTargets]) a ha
    · obtain ⟨found, hfound⟩ := h.there p hp hold hsucceeds targets htargets a ha
      exact ⟨found, hdone.kept _ _ hfound⟩

theorem RunInv.generateBatch {batch : List MaintenancePlan} (h : RunInv db faults runAt s)
    (hdue : ∀ p ∈ batch, Due db runAt p) (hnodup : (batch.map (·.id)).Nodup)
    (hseen : ∀ p ∈ batch, p.id ∉ s.seenPlanIds) :
    RunInv db faults runAt (batch.foldl (Maintenance.generatePlan faults) s) ∧
      (batch.foldl (Maintenance.generatePlan faults) s).seenPlanIds =
        (batch.map (·.id)).reverse ++ s.seenPlanIds := by
  induction batch generalizing s with
  | nil => exact ⟨h, rfl⟩
  | cons plan batch ih =>
    rw [List.map_cons, List.nodup_cons] at hnodup
    have hstep := h.generatePlan (hdue plan List.mem_cons_self) (hseen plan List.mem_cons_self)
    obtain ⟨hinv, hids⟩ := ih hstep (fun p hp => hdue p (List.mem_cons_of_mem plan hp)) hnodup.2
      fun p hp hmem => by
        rcases List.mem_cons.mp hmem with hid | hold
        · exact hnodup.1 (hid ▸ List.mem_map_of_mem hp)
        · exact hseen p (List.mem_cons_of_mem plan hp) hold
    refine ⟨hinv, ?_⟩
    rw [List.foldl_cons, hids, List.map_cons, List.reverse_cons, List.append_assoc]
    rfl

/-! ## The batches -/

theorem mem_selectDuePlans {limit : Nat}
    (h : p ∈ selectDuePlans db runAt limit) : Due db runAt p := by
  unfold selectDuePlans at h
  rw [List.mem_filter] at h
  have hmem := (List.mem_insertionSort _).mp (List.mem_of_mem_take (mem_of_mem_page h.1))
  rw [List.mem_filter, Bool.and_eq_true] at hmem
  exact ⟨hmem.1, hmem.2.1, h.2⟩

theorem selectedPlans_nodup (db : PmDb) (runAt : Int) (limit : Nat) :
    ((selectedPlans db runAt limit).map (·.id)).Nodup := by
  unfold selectedPlans
  refine List.Nodup.sublist (List.Sublist.map _ (page_sublist.trans (List.take_sublist _ _))) ?_
  rw [(List.Perm.map _ (List.perm_insertionSort _ _)).nodup_iff]
  exact db.plans.nodup.sublist (List.filter_sublist.map _)

theorem RunInv.fresh (h : RunInv db faults runAt s) {limit : Nat}
    (hp : p ∈ (selectDuePlans s.db runAt limit).filter fun p => !s.seenPlanIds.contains p.id) :
    Due db runAt p ∧ p.id ∉ s.seenPlanIds := by
  rw [List.mem_filter, Bool.not_eq_true', ← Bool.not_eq_true, List.contains_iff_mem] at hp
  have hdue := mem_selectDuePlans hp.1
  exact ⟨⟨(h.unseen hp.2).mp hdue.mem, hdue.active, hdue.due⟩, hp.2⟩

theorem RunInv.round (h : RunInv db faults runAt s) (batchSize : Nat) :
    RunInv db faults runAt (((selectDuePlans s.db runAt batchSize).filter fun p =>
        !s.seenPlanIds.contains p.id).foldl (Maintenance.generatePlan faults) s) ∧
      (((selectDuePlans s.db runAt batchSize).filter fun p =>
        !s.seenPlanIds.contains p.id).foldl (Maintenance.generatePlan faults) s).seenPlanIds =
        (((selectDuePlans s.db runAt batchSize).filter fun p =>
          !s.seenPlanIds.contains p.id).map (·.id)).reverse ++ s.seenPlanIds := by
  refine h.generateBatch (fun p hp => (h.fresh hp).1) ?_ fun p hp => (h.fresh hp).2
  unfold selectDuePlans
  refine List.Nodup.sublist ?_ (selectedPlans_nodup s.db runAt batchSize)
  exact (List.filter_sublist.trans List.filter_sublist).map _

theorem inv_generateLoop (fuel : Nat) (h : RunInv db faults runAt s) :
    RunInv db faults runAt (generateLoop batchSize faults runAt fuel s) ∧
      ∀ id ∈ s.seenPlanIds, id ∈ (generateLoop batchSize faults runAt fuel s).seenPlanIds := by
  induction fuel generalizing s with
  | zero => exact ⟨h, fun _ hid => hid⟩
  | succ fuel ih =>
    rw [generateLoop]
    dsimp only
    split
    · exact ⟨h, fun _ hid => hid⟩
    · obtain ⟨hround, hids⟩ := h.round batchSize
      have hsub : ∀ id ∈ s.seenPlanIds, id ∈ (((selectDuePlans s.db runAt batchSize).filter
          fun p => !s.seenPlanIds.contains p.id).foldl
            (Maintenance.generatePlan faults) s).seenPlanIds := by
        intro id hid
        rw [hids]
        exact List.mem_append_right _ hid
      split
      · exact ⟨hround, hsub⟩
      · obtain ⟨hinv, hrest⟩ := ih hround
        exact ⟨hinv, fun id hid => hrest id (hsub id hid)⟩

variable (db faults runAt batchSize) in
theorem inv_generateForTenant :
    RunInv db faults runAt (generateForTenant batchSize db runAt faults) :=
  (inv_generateLoop _ (inv_start db faults runAt)).1

theorem RunInv.seen_length_le (h : RunInv db faults runAt s) :
    s.seenPlanIds.length ≤ db.plans.rows.length := by
  have hsub : s.seenPlanIds ⊆ db.plans.rows.map (·.id) := by
    intro id hid
    obtain ⟨p, hp, rfl⟩ := h.seen id hid
    exact List.mem_map_of_mem hp.mem
  have hle := (List.subperm_of_subset h.nodup hsub).length_le
  rwa [List.length_map] at hle

/-! ## The loop -/

/-- The plans of a batch that were not seen before. -/
def freshBatch (batchSize : Nat) (runAt : Int) (s : TenantRun) : List MaintenancePlan :=
  (selectDuePlans s.db runAt batchSize).filter fun plan => !s.seenPlanIds.contains plan.id

/-- The `while` loop comes to its end, in so many rounds. -/
inductive Rounds (batchSize : Nat) (faults : PmFaults) (runAt : Int) :
    Nat → TenantRun → TenantRun → Prop where
  | nothing {s : TenantRun} (hfresh : freshBatch batchSize runAt s = []) :
      Rounds batchSize faults runAt 1 s s
  | last {s : TenantRun} (hfresh : freshBatch batchSize runAt s ≠ [])
      (hshort : (selectDuePlans s.db runAt batchSize).length < batchSize) :
      Rounds batchSize faults runAt 1 s ((freshBatch batchSize runAt s).foldl (generatePlan faults) s)
  | again {n : Nat} {s s' : TenantRun} (hfresh : freshBatch batchSize runAt s ≠ [])
      (hfull : batchSize ≤ (selectDuePlans s.db runAt batchSize).length)
      (hrest : Rounds batchSize faults runAt n
        ((freshBatch batchSize runAt s).foldl (generatePlan faults) s) s') :
      Rounds batchSize faults runAt (n + 1) s s'

/-- A round that is not the last sees a plan, so there are rounds enough for all plans. -/
theorem generateLoop_ends {fuel : Nat} (h : RunInv db faults runAt s)
    (hfuel : db.plans.rows.length < fuel + s.seenPlanIds.length) :
    ∃ n ≤ fuel, Rounds batchSize faults runAt n s (generateLoop batchSize faults runAt fuel s) := by
  induction fuel generalizing s with
  | zero =>
    have hle := h.seen_length_le
    omega
  | succ fuel ih =>
    rw [generateLoop]
    dsimp only
    split
    · rename_i hfresh
      exact ⟨1, by omega, .nothing (List.isEmpty_iff.mp hfresh)⟩
    · rename_i hfresh
      rw [List.isEmpty_iff] at hfresh
      split
      · rename_i hshort
        exact ⟨1, by omega, .last hfresh hshort⟩
      · rename_i hfull
        obtain ⟨hround, hids⟩ := h.round batchSize
        have hpos := List.length_pos_of_ne_nil hfresh
        obtain ⟨n, hn, hrest⟩ := ih hround (by
          rw [hids, List.length_append, List.length_reverse, List.length_map]
          omega)
        exact ⟨n + 1, by omega, .again hfresh (Nat.le_of_not_lt hfull) hrest⟩

/-- The loop ends within one round more than there are plans, though a plan that fails is selected
again in every round. -/
theorem generateForTenant_ends (batchSize : Nat) (db : PmDb) (runAt : Int) (faults : PmFaults) :
    ∃ n ≤ db.plans.rows.length + 1,
      Rounds batchSize faults runAt n { db := db } (generateForTenant batchSize db runAt faults) :=
  generateLoop_ends (inv_start db faults runAt) (Nat.lt_succ_self _)

end Prequest.Maintenance
