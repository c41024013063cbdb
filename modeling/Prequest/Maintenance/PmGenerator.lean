import Mathlib.Data.List.Sort
import Prequest.Lib.Table
import Prequest.Maintenance.Recurrence
import Prequest.Shared.DataApi

/-!
# The generator of preventive maintenance

Every night the generator makes a work order for each asset of each plan whose
next run is due, and moves the plan to its next run. A plan is due some lead
days before its run. The query cannot express that, so it takes a batch of the
plans that come first, and those that are not due are left out afterwards. The
assets of a type are read in one query.

Work orders are keyed by the unique index of their occurrence.
-/

namespace Prequest.Maintenance

open Prequest.Lib Prequest.Lib.Calendar Prequest.Shared

/-! ## Rows -/

inductive LifecycleState where
  | procured
  | active
  | maintenance
  | retired
  | disposed
  deriving DecidableEq, Repr

/-- `IN_SERVICE_LIFECYCLE`. -/
def LifecycleState.inService : LifecycleState → Bool
  | .active | .maintenance => true
  | _ => false

structure PmAsset where
  id : Nat
  assetTypeId : Nat
  assignedSpaceId : Option Nat := none
  lifecycleState : LifecycleState
  deriving DecidableEq, Repr

instance : Keyed PmAsset Nat where
  key asset := asset.id

structure PmRequestType where
  id : Nat
  active : Bool
  slaPolicyId : Option Nat := none
  deriving DecidableEq, Repr

instance : Keyed PmRequestType Nat where
  key requestType := requestType.id

inductive PlanTarget where
  | asset (assetId : Nat)
  | assetType (assetTypeId : Nat)
  deriving DecidableEq, Repr

/-- A row of `maintenance_plans`. The table checks that the interval is positive. -/
structure MaintenancePlan where
  id : Nat
  active : Bool
  target : PlanTarget
  requestTypeId : Nat
  locationId : Option Nat := none
  cadence : Cadence
  leadDays : Nat
  nextRunAt : Int

instance : Keyed MaintenancePlan Nat where
  key plan := plan.id

structure PmWorkOrder where
  maintenancePlanId : Nat
  sourceAssetId : Nat
  plannedStartAt : Int
  ticketTypeId : Nat
  locationId : Option Nat
  slaId : Option Nat
  deriving DecidableEq, Repr

/-- `uq_work_orders_pm_occurrence`. -/
instance : Keyed PmWorkOrder (Nat × Nat × Int) where
  key workOrder :=
    (workOrder.maintenancePlanId, workOrder.sourceAssetId, workOrder.plannedStartAt)

structure PmDb where
  plans : Table MaintenancePlan
  assets : Table PmAsset
  requestTypes : Table PmRequestType
  workOrders : Table PmWorkOrder

/-- Which calls to the database fail in a run: the lookup of the assets of a plan, the function for
a plan and an asset, and the update of a plan. -/
structure PmFaults where
  lookup : Nat → Bool := fun _ => false
  rpc : Nat → Nat → Bool := fun _ _ => false
  update : Nat → Bool := fun _ => false

/-! ## One work order -/

/-- `create_pm_work_order`: the work order made, or none where there is nothing to make. -/
def createPmWorkOrder (db : PmDb) (planId assetId : Nat) (runAt : Int) :
    Except String (Option PmWorkOrder × PmDb) :=
  match db.plans.get? planId with
  | none => .error "create_pm_work_order.plan_not_found"
  | some plan =>
      if !plan.active then .ok (none, db)
      else match db.assets.get? assetId with
      | none => .error "create_pm_work_order.asset_not_in_tenant"
      | some asset =>
          if !asset.lifecycleState.inService then .ok (none, db)
          else match db.requestTypes.get? plan.requestTypeId with
          | none => .error "create_pm_work_order.request_type_inactive"
          | some requestType =>
              if !requestType.active then .error "create_pm_work_order.request_type_inactive"
              else
                let workOrder : PmWorkOrder :=
                  { maintenancePlanId := planId
                    sourceAssetId := assetId
                    plannedStartAt := runAt
                    ticketTypeId := plan.requestTypeId
                    locationId := plan.locationId.or asset.assignedSpaceId
                    slaId := requestType.slaPolicyId }
                match db.workOrders.insert? workOrder with
                | none => .ok (none, db)
                | some workOrders => .ok (some workOrder, { db with workOrders := workOrders })

/-! ## One plan -/

/-- The assets of a type that are in service. -/
def assetsOfType (db : PmDb) (assetTypeId : Nat) : List Nat :=
  ((db.assets.rows.filter fun asset =>
    asset.assetTypeId == assetTypeId && asset.lifecycleState.inService).map (·.id)).insertionSort
      (· ≤ ·)

/-- The assets that the generator reads for a plan, or none when the read fails. -/
def resolveTargets (db : PmDb) (faults : PmFaults) (plan : MaintenancePlan) : Option (List Nat) :=
  if faults.lookup plan.id then none
  else match plan.target with
  | .asset assetId =>
      match db.assets.get? assetId with
      | none => some []
      | some asset => some (if asset.lifecycleState.inService then [assetId] else [])
  | .assetType assetTypeId => some (page (assetsOfType db assetTypeId))

/-- What has happened in a plan so far. -/
structure PlanRun where
  db : PmDb
  spawned : Nat := 0
  failed : Nat := 0
  allAssetsSucceeded : Bool := true

def generateForAsset (faults : PmFaults) (plan : MaintenancePlan) (s : PlanRun) (assetId : Nat) :
    PlanRun :=
  if faults.rpc plan.id assetId then
    { s with failed := s.failed + 1, allAssetsSucceeded := false }
  else match createPmWorkOrder s.db plan.id assetId plan.nextRunAt with
  | .error _ => { s with failed := s.failed + 1, allAssetsSucceeded := false }
  | .ok (workOrder, db) =>
      { s with db := db, spawned := if workOrder.isSome then s.spawned + 1 else s.spawned }

/-- `set next_run_at = …`. -/
def setNextRunAt (next : Int) : Table.Assignment MaintenancePlan where
  apply plan := { plan with nextRunAt := next }
  key_apply _ := rfl

/-- The plans after `advancePlan`, or none when it throws: `toISOString` does of an invalid date. -/
def advancePlan (db : PmDb) (faults : PmFaults) (plan : MaintenancePlan) : Option PmDb :=
  match plan.cadence.advance (some plan.nextRunAt) with
  | .ok (some advanced) =>
      if faults.update plan.id then none
      else some { db with
        plans := db.plans.update (fun p => p.id == plan.id) (setNextRunAt advanced) }
  | _ => none

/-- `generateForPlan` and the `catch` around it: what was written stays when it throws. -/
def generateForPlan (db : PmDb) (faults : PmFaults) (plan : MaintenancePlan) : PlanRun :=
  match resolveTargets db faults plan with
  | none => { db := db, failed := 1, allAssetsSucceeded := false }
  | some targets =>
      let s := targets.foldl (generateForAsset faults plan) { db := db }
      if !s.allAssetsSucceeded then s
      else match advancePlan s.db faults plan with
      | none => { db := s.db, failed := 1, allAssetsSucceeded := false }
      | some db => { s with db := db }

/-! ## A tenant -/

/-- `isDueWithLeadDays`. -/
def isDueWithLeadDays (runAt : Int) (plan : MaintenancePlan) : Bool :=
  (addDays (some runAt) plan.leadDays).any fun cutoff => decide (plan.nextRunAt ≤ cutoff)

/-- The rows of the query: active plans up to a year ahead, those that run first. An invalid cutoff
makes it throw, and nothing is selected. -/
def selectedPlans (db : PmDb) (runAt : Int) (limit : Nat) : List MaintenancePlan :=
  page (((db.plans.rows.filter fun plan =>
    plan.active && (addDays (some runAt) 365).any fun cutoff =>
      decide (plan.nextRunAt ≤ cutoff)).insertionSort fun p q => p.nextRunAt ≤ q.nextRunAt).take
        limit)

def selectDuePlans (db : PmDb) (runAt : Int) (limit : Nat) : List MaintenancePlan :=
  (selectedPlans db runAt limit).filter (isDueWithLeadDays runAt)

/-- What has happened in a tenant so far. -/
structure TenantRun where
  db : PmDb
  spawned : Nat := 0
  failed : Nat := 0
  seenPlanIds : List Nat := []

def generatePlan (faults : PmFaults) (s : TenantRun) (plan : MaintenancePlan) : TenantRun :=
  let result := generateForPlan s.db faults plan
  { db := result.db
    spawned := s.spawned + result.spawned
    failed := s.failed + result.failed
    seenPlanIds := plan.id :: s.seenPlanIds }

/-- The rounds of the loop, of which there are `fuel` at most. -/
def generateLoop (batchSize : Nat) (faults : PmFaults) (runAt : Int) :
    Nat → TenantRun → TenantRun
  | 0, s => s
  | fuel + 1, s =>
      let dueBatch := selectDuePlans s.db runAt batchSize
      let freshBatch := dueBatch.filter fun plan => !s.seenPlanIds.contains plan.id
      if freshBatch.isEmpty then s
      else
        let s := freshBatch.foldl (generatePlan faults) s
        if dueBatch.length < batchSize then s
        else generateLoop batchSize faults runAt fuel s

/-- `generateForTenant`. Every round but the last sees a plan, so the rounds are enough. -/
def generateForTenant (batchSize : Nat) (db : PmDb) (runAt : Int) (faults : PmFaults) : TenantRun :=
  generateLoop batchSize faults runAt (db.plans.rows.length + 1) { db := db }

end Prequest.Maintenance
