import Mathlib.Algebra.Order.BigOperators.Group.List
import Mathlib.Algebra.Order.Ring.Nat
import Prequest.Lib.Run
import Prequest.Maintenance.PmRun

/-!
# Plans that are passed over

The query of a batch does not know which of its plans are due, and plans that
fail stay at its front. So a batch can hold no plan that is worth taking up. And
the assets of a plan that come after the first page are not read, so the plan is
moved without them.

* `generateLaw_of_reaches`, `reaches_of_generateLaw`: the law of one run.
* `pmLaw_of_guarded`: the law of every run of runs and edits.
-/

namespace Prequest.Maintenance

open Prequest.Lib Prequest.Lib.Calendar Prequest.Shared

variable {db : PmDb} {faults : PmFaults} {runAt : Int} {batchSize : Nat}

/-! ## The first batch -/

theorem generateLoop_succ (fuel : Nat) (s : TenantRun) :
    generateLoop batchSize faults runAt (fuel + 1) s =
      if ((selectDuePlans s.db runAt batchSize).filter fun p =>
          !s.seenPlanIds.contains p.id).isEmpty then s
      else if (selectDuePlans s.db runAt batchSize).length < batchSize then
        ((selectDuePlans s.db runAt batchSize).filter fun p =>
          !s.seenPlanIds.contains p.id).foldl (generatePlan faults) s
      else
        generateLoop batchSize faults runAt fuel
          (((selectDuePlans s.db runAt batchSize).filter fun p =>
            !s.seenPlanIds.contains p.id).foldl (generatePlan faults) s) := rfl

theorem filter_unseen (plans : List MaintenancePlan) :
    plans.filter (fun p => !([] : List Nat).contains p.id) = plans := by
  simp

def afterBatch (batchSize : Nat) (db : PmDb) (runAt : Int) (faults : PmFaults) : TenantRun :=
  (selectDuePlans db runAt batchSize).foldl (generatePlan faults) { db := db }

variable (db faults runAt batchSize) in
theorem afterBatch_spec : RunInv db faults runAt (afterBatch batchSize db runAt faults) ∧
    ∀ id, id ∈ (afterBatch batchSize db runAt faults).seenPlanIds ↔
      ∃ p ∈ selectDuePlans db runAt batchSize, p.id = id := by
  have h := (inv_start db faults runAt).round batchSize
  dsimp only at h
  rw [filter_unseen] at h
  refine ⟨h.1, fun id => ?_⟩
  unfold afterBatch
  rw [h.2, List.append_nil, List.mem_reverse, List.mem_map]

variable (db faults runAt batchSize) in
theorem generateForTenant_eq :
    generateForTenant batchSize db runAt faults = afterBatch batchSize db runAt faults ∨
      batchSize ≤ (selectDuePlans db runAt batchSize).length ∧
        generateForTenant batchSize db runAt faults =
          generateLoop batchSize faults runAt db.plans.rows.length
            (afterBatch batchSize db runAt faults) := by
  unfold generateForTenant
  rw [generateLoop_succ]
  dsimp only
  rw [filter_unseen]
  split
  · rename_i hempty
    refine .inl ?_
    unfold afterBatch
    rw [List.isEmpty_iff.mp hempty]
    rfl
  · split
    · exact .inl rfl
    · rename_i hlength
      exact .inr ⟨Nat.le_of_not_lt hlength, rfl⟩

variable {p : MaintenancePlan}

theorem attempted_of_selected (h : p ∈ selectDuePlans db runAt batchSize) :
    p.id ∈ (generateForTenant batchSize db runAt faults).seenPlanIds := by
  have hbatch := ((afterBatch_spec db faults runAt batchSize).2 p.id).mpr ⟨p, h, rfl⟩
  rcases generateForTenant_eq db faults runAt batchSize with heq | ⟨_, heq⟩
  · rwa [heq]
  · rw [heq]
    exact (inv_generateLoop _ (afterBatch_spec db faults runAt batchSize).1).2 p.id hbatch

theorem attempted_of_stuck
    (h : (selectDuePlans db runAt batchSize).length < batchSize ∨
      ∀ p ∈ selectDuePlans db runAt batchSize, succeeds db faults p = false) :
    generateForTenant batchSize db runAt faults = afterBatch batchSize db runAt faults := by
  rcases generateForTenant_eq db faults runAt batchSize with heq | ⟨hlength, heq⟩
  · exact heq
  · rcases h with hlt | hfail
    · omega
    · rw [heq]
      obtain ⟨hinv, hseen⟩ := afterBatch_spec db faults runAt batchSize
      generalize afterBatch batchSize db runAt faults = s at hinv hseen ⊢
      -- No plan was moved, so the next batch is the same and none of it is fresh.
      have hplans : s.db.plans = db.plans := by
        rw [hinv.plans]
        refine Table.update_eq_self fun p hp => ?_
        rw [Bool.and_eq_false_iff, ← Bool.not_eq_true, List.contains_iff_mem]
        by_cases hmem : p.id ∈ s.seenPlanIds
        · obtain ⟨q, hq, hid⟩ := (hseen p.id).mp hmem
          obtain rfl := db.plans.eq_of_key_eq (mem_selectDuePlans hq).mem hp hid
          exact .inr (hfail q hq)
        · exact .inl hmem
      have hselect : selectDuePlans s.db runAt batchSize = selectDuePlans db runAt batchSize := by
        unfold selectDuePlans selectedPlans
        rw [hplans]
      cases db.plans.rows.length with
      | zero => rfl
      | succ fuel =>
        rw [generateLoop_succ, hselect, if_pos]
        rw [List.isEmpty_iff, List.filter_eq_nil_iff]
        intro p hp
        rw [Bool.not_eq_true', Bool.not_eq_false, List.contains_iff_mem]
        exact (hseen p.id).mpr ⟨p, hp, rfl⟩

/-! ## The law of a run -/

structure GenerateLaw (batchSize : Nat) (db : PmDb) (runAt : Int) (faults : PmFaults) : Prop where
  /-- Every due plan is taken up, or as many as a batch holds. -/
  attempts : ∀ q, Due db runAt q →
    q.id ∈ (generateForTenant batchSize db runAt faults).seenPlanIds ∨
      batchSize ≤ (generateForTenant batchSize db runAt faults).seenPlanIds.length
  /-- A due plan is passed over only where a plan ahead of it was moved. -/
  passedOver : ∀ q, Due db runAt q →
    q.id ∈ (generateForTenant batchSize db runAt faults).seenPlanIds ∨
      ∃ p ∈ db.plans.rows, p.nextRunAt ≤ q.nextRunAt ∧
        ∃ p' ∈ (generateForTenant batchSize db runAt faults).db.plans.rows,
          p'.id = p.id ∧ p.nextRunAt < p'.nextRunAt
  onlyDue : ∀ id ∈ (generateForTenant batchSize db runAt faults).seenPlanIds,
    ∃ p, Due db runAt p ∧ p.id = id
  /-- A plan is moved when all its assets have their work order. -/
  moves : ∀ p ∈ db.plans.rows, ∀ p' ∈ (generateForTenant batchSize db runAt faults).db.plans.rows,
    p'.id = p.id → p'.nextRunAt ≠ p.nextRunAt →
      p.id ∈ (generateForTenant batchSize db runAt faults).seenPlanIds ∧
        ∀ assetId ∈ planAssets db p, ∃ workOrder,
          (generateForTenant batchSize db runAt faults).db.workOrders.get?
            (p.id, assetId, p.nextRunAt) = some workOrder
  keeps : ∀ k workOrder, db.workOrders.get? k = some workOrder →
    (generateForTenant batchSize db runAt faults).db.workOrders.get? k = some workOrder
  /-- A new work order is of the next run of a plan that was taken up. -/
  creates : ∀ k workOrder,
    (generateForTenant batchSize db runAt faults).db.workOrders.get? k = some workOrder →
      db.workOrders.get? k = some workOrder ∨
        ∃ p ∈ db.plans.rows, p.id ∈ (generateForTenant batchSize db runAt faults).seenPlanIds ∧
          ∃ assetId ∈ planAssets db p, k = (p.id, assetId, p.nextRunAt)

/-- The first batch holds every due plan, or it is full of due plans and one of them succeeds. -/
def Reaches (batchSize : Nat) (db : PmDb) (runAt : Int) (faults : PmFaults) : Prop :=
  (∀ q, Due db runAt q → q ∈ selectedPlans db runAt batchSize) ∨
    ((selectedPlans db runAt batchSize).length = batchSize ∧
      (∀ p ∈ selectedPlans db runAt batchSize, isDueWithLeadDays runAt p = true) ∧
      ∃ p ∈ selectedPlans db runAt batchSize, succeeds db faults p = true)

/-- Each asset of a due plan that succeeds is read, or has its work order already. -/
def ReadsAssets (db : PmDb) (runAt : Int) (faults : PmFaults) : Prop :=
  ∀ p, Due db runAt p → succeeds db faults p = true → ∀ assetId ∈ planAssets db p,
    assetId ∈ page (planAssets db p) ∨ ∃ workOrder,
      db.workOrders.get? (p.id, assetId, p.nextRunAt) = some workOrder

theorem readsAssets_of_page (h : ∀ p, Due db runAt p → (planAssets db p).length ≤ maxRows) :
    ReadsAssets db runAt faults := by
  intro p hdue _ assetId hmem
  rw [page_eq_self_iff.mpr (h p hdue)]
  exact .inl hmem

variable {q : MaintenancePlan} {p' : MaintenancePlan}

theorem le_of_not_selected (hp : p ∈ selectedPlans db runAt batchSize)
    (hq : q ∈ db.plans.rows) (hactive : q.active = true)
    (hout : q ∉ selectedPlans db runAt batchSize) : p.nextRunAt ≤ q.nextRunAt := by
  unfold selectedPlans at hp hout
  unfold page at hp hout
  rw [List.take_take] at hp hout
  generalize min maxRows batchSize = limit at hp hout
  generalize hplans : db.plans.rows.filter (fun plan => plan.active &&
    (addDays (some runAt) 365).any fun cutoff => decide (plan.nextRunAt ≤ cutoff)) = plans at hp hout
  by_cases hmem : q ∈ plans
  · have hsorted := List.pairwise_insertionSort
      (fun p q : MaintenancePlan => p.nextRunAt ≤ q.nextRunAt) plans
    rw [← List.take_append_drop limit (plans.insertionSort _), List.pairwise_append] at hsorted
    refine hsorted.2.2 p hp q ?_
    have hall := (List.mem_insertionSort
      (fun p q : MaintenancePlan => p.nextRunAt ≤ q.nextRunAt)).mpr hmem
    rw [← List.take_append_drop limit (plans.insertionSort _), List.mem_append] at hall
    exact hall.resolve_left hout
  · -- It is out of the year that the query looks ahead.
    have hwithin := (List.mem_insertionSort _).mp (List.mem_of_mem_take hp)
    rw [← hplans, List.mem_filter, Bool.and_eq_true] at hwithin
    rw [← hplans, List.mem_filter, hactive, Bool.true_and] at hmem
    cases hcutoff : addDays (some runAt) 365 with
    | none =>
      rw [hcutoff] at hwithin
      exact absurd hwithin.2.2 Bool.false_ne_true
    | some cutoff =>
      rw [hcutoff] at hwithin hmem
      have hle : p.nextRunAt ≤ cutoff := of_decide_eq_true hwithin.2.2
      have hgt : ¬q.nextRunAt ≤ cutoff := fun h => hmem ⟨hq, decide_eq_true h⟩
      omega

theorem mem_plans_after :
    p' ∈ (generateForTenant batchSize db runAt faults).db.plans.rows ↔
      ∃ p ∈ db.plans.rows,
        (p.id ∈ (generateForTenant batchSize db runAt faults).seenPlanIds ∧
          succeeds db faults p = true ∧ p' = p.atNextRun) ∨
        (¬(p.id ∈ (generateForTenant batchSize db runAt faults).seenPlanIds ∧
          succeeds db faults p = true) ∧ p' = p) := by
  rw [(inv_generateForTenant db faults runAt batchSize).plans]
  unfold plansAfter
  rw [Table.mem_update_iff]
  refine exists_congr fun p => and_congr_right fun _ => ?_
  rw [Bool.and_eq_true, List.contains_iff_mem, and_assoc]
  rfl

theorem mem_selectDuePlans_iff : p ∈ selectDuePlans db runAt batchSize ↔
      p ∈ selectedPlans db runAt batchSize ∧ isDueWithLeadDays runAt p = true :=
  List.mem_filter

/-- Without it a run breaks its promises. -/
theorem reaches_of_generateLaw (hlaw : GenerateLaw batchSize db runAt faults) :
    Reaches batchSize db runAt faults := by
  by_contra hreaches
  unfold Reaches at hreaches
  push Not at hreaches
  obtain ⟨⟨q, hq, hout⟩, hstuck⟩ := hreaches
  -- The run ends with the first batch, which `q` is not in.
  have hends : ∀ _ : (selectDuePlans db runAt batchSize).length < batchSize ∨
      ∀ p ∈ selectDuePlans db runAt batchSize, succeeds db faults p = false,
      q.id ∉ (generateForTenant batchSize db runAt faults).seenPlanIds := by
    intro h hmem
    rw [attempted_of_stuck h] at hmem
    obtain ⟨p, hp, hid⟩ := ((afterBatch_spec db faults runAt batchSize).2 q.id).mp hmem
    obtain rfl := db.plans.eq_of_key_eq (mem_selectDuePlans hp).mem hq.mem hid
    exact hout (mem_selectDuePlans_iff.mp hp).1
  have hle : (selectedPlans db runAt batchSize).length ≤ batchSize :=
    page_sublist.length_le.trans (List.length_take_le _ _)
  by_cases hdue : (selectDuePlans db runAt batchSize).length < batchSize
  · have hunseen := hends (.inl hdue)
    have hcount := (hlaw.attempts q hq).resolve_left hunseen
    rw [attempted_of_stuck (.inl hdue)] at hcount
    obtain ⟨hbatch, hseen⟩ := afterBatch_spec db faults runAt batchSize
    have hsub : (afterBatch batchSize db runAt faults).seenPlanIds ⊆
        (selectDuePlans db runAt batchSize).map (·.id) := fun id hid =>
      List.mem_map.mpr ((hseen id).mp hid)
    have hshort := (List.subperm_of_subset hbatch.nodup hsub).length_le
    rw [List.length_map] at hshort
    omega
  · have hfull : (selectedPlans db runAt batchSize).length =
        (selectDuePlans db runAt batchSize).length := by
      have hfilter : (selectDuePlans db runAt batchSize).length ≤
          (selectedPlans db runAt batchSize).length := List.length_filter_le _ _
      omega
    have hall : ∀ p ∈ selectedPlans db runAt batchSize, isDueWithLeadDays runAt p = true :=
      List.length_filter_eq_length_iff.mp hfull.symm
    have hfail : ∀ p ∈ selectDuePlans db runAt batchSize, succeeds db faults p = false :=
      fun p hp => Bool.eq_false_iff.mpr
        (hstuck (by omega) hall p (mem_selectDuePlans_iff.mp hp).1)
    obtain ⟨p, hp, _, p', hp', hid, hlt⟩ :=
      (hlaw.passedOver q hq).resolve_left (hends (.inr hfail))
    obtain ⟨r, hr, ⟨hseen, hsucceeds, rfl⟩ | ⟨_, rfl⟩⟩ := mem_plans_after.mp hp'
    · rw [attempted_of_stuck (.inr hfail)] at hseen
      obtain ⟨s, hs, hsid⟩ := ((afterBatch_spec db faults runAt batchSize).2 r.id).mp hseen
      obtain rfl := db.plans.eq_of_key_eq (mem_selectDuePlans hs).mem hr hsid
      rw [hfail s hs] at hsucceeds
      cases hsucceeds
    · obtain rfl := db.plans.eq_of_key_eq hr hp hid
      omega

theorem generateLaw_of_reaches (hreaches : Reaches batchSize db runAt faults)
    (hreads : ReadsAssets db runAt faults) : GenerateLaw batchSize db runAt faults := by
  have hinv := inv_generateForTenant db faults runAt batchSize
  refine ⟨fun q hq => ?_, fun q hq => ?_, hinv.seen, fun p hp p' hp' hid hmoved => ?_, hinv.kept,
    fun k workOrder hfound => ?_⟩
  · rcases hreaches with hall | ⟨hfull, hdue, _⟩
    · exact .inl (attempted_of_selected (mem_selectDuePlans_iff.mpr ⟨hall q hq, hq.due⟩))
    · refine .inr ?_
      have hsub : (selectedPlans db runAt batchSize).map (·.id) ⊆
          (generateForTenant batchSize db runAt faults).seenPlanIds := by
        intro id hid
        obtain ⟨p, hp, rfl⟩ := List.mem_map.mp hid
        exact attempted_of_selected (mem_selectDuePlans_iff.mpr ⟨hp, hdue p hp⟩)
      have hle := (List.subperm_of_subset (selectedPlans_nodup db runAt batchSize) hsub).length_le
      rwa [List.length_map, hfull] at hle
  · rcases hreaches with hall | ⟨_, hdue, p, hp, hsucceeds⟩
    · exact .inl (attempted_of_selected (mem_selectDuePlans_iff.mpr ⟨hall q hq, hq.due⟩))
    · by_cases hselected : q ∈ selectedPlans db runAt batchSize
      · exact .inl (attempted_of_selected (mem_selectDuePlans_iff.mpr ⟨hselected, hq.due⟩))
      · have hpdue := mem_selectDuePlans_iff.mpr ⟨hp, hdue p hp⟩
        have hmem := (mem_selectDuePlans hpdue).mem
        refine .inr ⟨p, hmem, le_of_not_selected hp hq.mem hq.active hselected, p.atNextRun, ?_,
          rfl, lt_step p.cadence p.nextRunAt⟩
        exact mem_plans_after.mpr
          ⟨p, hmem, .inl ⟨attempted_of_selected hpdue, hsucceeds, rfl⟩⟩
  · obtain ⟨q, hq, ⟨hseen, hsucceeds, rfl⟩ | ⟨_, rfl⟩⟩ := mem_plans_after.mp hp'
    · obtain rfl := db.plans.eq_of_key_eq hq hp hid
      refine ⟨hseen, ?_⟩
      cases htargets : resolveTargets db faults q with
      | none =>
        rw [succeeds, htargets] at hsucceeds
        cases hsucceeds
      | some targets =>
        obtain ⟨p, hdue, hp⟩ := hinv.seen q.id hseen
        obtain rfl := db.plans.eq_of_key_eq hdue.mem hq hp
        intro assetId hasset
        rcases hreads p hdue hsucceeds assetId hasset with hread | ⟨workOrder, hold⟩
        · rw [← resolveTargets_eq_page htargets] at hread
          exact hinv.there p hq hseen hsucceeds targets htargets assetId hread
        · exact ⟨workOrder, hinv.kept _ _ hold⟩
    · obtain rfl := db.plans.eq_of_key_eq hq hp hid
      exact absurd rfl hmoved
  · refine (hinv.made k workOrder hfound).imp_right ?_
    rintro ⟨p, hp, hseen, targets, htargets, assetId, hasset, hk⟩
    rw [resolveTargets_eq_page htargets] at hasset
    exact ⟨p, hp, hseen, assetId, mem_of_mem_page hasset, hk⟩

/-! ## Later runs -/

/-- The time that plans may still move up to a plan. -/
def ahead (db : PmDb) (q : MaintenancePlan) : Nat :=
  (db.plans.rows.map fun p => (q.nextRunAt + 1 - p.nextRunAt).toNat).sum

theorem ahead_lt (hp : p ∈ db.plans.rows) (hle : p.nextRunAt ≤ q.nextRunAt)
    (hp' : p' ∈ (generateForTenant batchSize db runAt faults).db.plans.rows) (hid : p'.id = p.id)
    (hlt : p.nextRunAt < p'.nextRunAt) :
    ahead (generateForTenant batchSize db runAt faults).db q < ahead db q := by
  have hplans := (inv_generateForTenant db faults runAt batchSize).plans
  generalize (generateForTenant batchSize db runAt faults).seenPlanIds = seen at hplans
  generalize (generateForTenant batchSize db runAt faults).db = db' at hplans hp' ⊢
  unfold ahead
  rw [hplans] at hp' ⊢
  show ((db.plans.rows.map _).map _).sum < _
  rw [List.map_map]
  have hforward : ∀ r : MaintenancePlan, r.nextRunAt ≤ (Table.updated
      (fun p => seen.contains p.id && succeeds db faults p) moveOn r).nextRunAt := by
    intro r
    unfold Table.updated
    split
    · exact Int.le_of_lt (lt_step r.cadence r.nextRunAt)
    · exact Int.le_refl _
  refine List.sum_lt_sum _ _ (fun r _ => ?_) ⟨p, hp, ?_⟩
  · have hr := hforward r
    dsimp only [Function.comp_apply]
    omega
  · obtain ⟨r, hr, rfl⟩ := Table.mem_update.mp hp'
    have hkey : r.id = p.id :=
      (Table.key_updated (fun p => seen.contains p.id && succeeds db faults p) moveOn r).symm.trans
        hid
    obtain rfl := db.plans.eq_of_key_eq hr hp hkey
    dsimp only [Function.comp_apply]
    omega

def afterRuns (batchSize : Nat) (db : PmDb) (runs : List (Int × PmFaults)) : PmDb :=
  run (fun db r => (generateForTenant batchSize db r.1 r.2).db) db runs

theorem attempted_of_runs {runs : List (Int × PmFaults)}
    (hlaw : ∀ pre r post, runs = pre ++ r :: post →
      GenerateLaw batchSize (afterRuns batchSize db pre) r.1 r.2)
    (hdue : ∀ r ∈ runs, Due db r.1 q) (hlength : ahead db q < runs.length) :
    ∃ pre r post, runs = pre ++ r :: post ∧
      q.id ∈ (generateForTenant batchSize (afterRuns batchSize db pre) r.1 r.2).seenPlanIds := by
  induction runs generalizing db with
  | nil => exact absurd hlength (Nat.not_lt_zero _)
  | cons r runs ih =>
    have hfirst := hdue r List.mem_cons_self
    have hlawFirst : GenerateLaw batchSize db r.1 r.2 := hlaw [] r runs rfl
    rcases hlawFirst.passedOver q hfirst with hseen | ⟨p, hp, hle, p', hp', hid, hlt⟩
    · exact ⟨[], r, runs, rfl, hseen⟩
    · by_cases hseen : q.id ∈ (generateForTenant batchSize db r.1 r.2).seenPlanIds
      · exact ⟨[], r, runs, rfl, hseen⟩
      · -- The plan is as it was, and there is less time ahead of it.
        have hsame : q ∈ (generateForTenant batchSize db r.1 r.2).db.plans.rows :=
          ((inv_generateForTenant db r.2 r.1 batchSize).unseen hseen).mpr hfirst.mem
        have hless := ahead_lt hp hle hp' hid hlt
        rw [List.length_cons] at hlength
        obtain ⟨pre, r', post, hruns, hattempted⟩ := @ih
          (generateForTenant batchSize db r.1 r.2).db
          (fun pre r' post hruns => hlaw (r :: pre) r' post (by rw [hruns]; rfl))
          (fun r' hr' => ⟨hsame, hfirst.active, (hdue r' (List.mem_cons_of_mem r hr')).due⟩)
          (by omega)
        exact ⟨r :: pre, r', post, by rw [hruns]; rfl, hattempted⟩

/-! ## Runs and edits -/

/-- A run of the generator, or any change of the plans, the assets and the request types. -/
inductive PmEvent where
  | generate (runAt : Int) (faults : PmFaults)
  | edit (plans : Table MaintenancePlan) (assets : Table PmAsset)
      (requestTypes : Table PmRequestType)

def pmStep (batchSize : Nat) (db : PmDb) : PmEvent → PmDb
  | .generate runAt faults => (generateForTenant batchSize db runAt faults).db
  | .edit plans assets requestTypes =>
      { db with plans := plans, assets := assets, requestTypes := requestTypes }

/-- The runs of a sequence of events keep their promises, and a plan that stays due in later runs
is taken up in one of them. -/
structure PmLaw (batchSize : Nat) (db : PmDb) (events : List PmEvent) : Prop where
  run : ∀ pre runAt faults post, events = pre ++ .generate runAt faults :: post →
    GenerateLaw batchSize (run (pmStep batchSize) db pre) runAt faults
  attempted : ∀ pre (runs : List (Int × PmFaults)) post q,
    events = pre ++ runs.map (fun r => .generate r.1 r.2) ++ post →
    (∀ r ∈ runs, Due (Lib.run (pmStep batchSize) db pre) r.1 q) →
    ahead (Lib.run (pmStep batchSize) db pre) q < runs.length →
      ∃ before r after, runs = before ++ r :: after ∧
        q.id ∈ (generateForTenant batchSize
          (afterRuns batchSize (Lib.run (pmStep batchSize) db pre) before) r.1 r.2).seenPlanIds

/-- The first batch of a run reaches the due plans, or moves one of its own, and the assets of the
due plans are read. -/
def ReachesDue (batchSize : Nat) (db : PmDb) : PmEvent → Prop
  | .generate runAt faults => Reaches batchSize db runAt faults ∧ ReadsAssets db runAt faults
  | .edit .. => True

theorem run_generate (runs : List (Int × PmFaults)) :
    run (pmStep batchSize) db (runs.map fun r => .generate r.1 r.2) =
      afterRuns batchSize db runs :=
  List.foldl_map ..

/-- The generator keeps its promises in the runs and edits in which every first batch reaches the
due plans, or moves one of its own, and their assets are read. -/
theorem pmLaw_of_guarded {batchSize : Nat} {db : PmDb} {events : List PmEvent}
    (hok : Guarded (pmStep batchSize) (ReachesDue batchSize) db events) :
    PmLaw batchSize db events := by
  rw [guarded_iff] at hok
  have hrun : ∀ pre runAt faults post, events = pre ++ .generate runAt faults :: post →
      GenerateLaw batchSize (run (pmStep batchSize) db pre) runAt faults := by
    intro pre runAt faults post hevents
    obtain ⟨hreaches, hreads⟩ := hok pre _ post hevents
    exact generateLaw_of_reaches hreaches hreads
  refine ⟨hrun, fun pre runs post q hevents hdue hlength => ?_⟩
  refine attempted_of_runs (fun before r after hruns => ?_) hdue hlength
  rw [← run_generate, ← run_append]
  refine hrun _ r.1 r.2 (after.map (fun r => .generate r.1 r.2) ++ post) ?_
  rw [hevents, hruns, List.map_append, List.map_cons]
  simp only [List.append_assoc, List.cons_append]

/-! ## Two assets -/

/-- A plan for the two assets of a type. -/
def planOfType (nextRunAt : Int) : MaintenancePlan where
  id := 1
  active := true
  target := .assetType 1
  requestTypeId := 1
  cadence := ⟨30, .day, by decide⟩
  leadDays := 0
  nextRunAt := nextRunAt

def twoAssets : PmDb where
  plans := ⟨[planOfType 1777604400000], List.nodup_singleton _⟩
  assets := ⟨[{ id := 1, assetTypeId := 1, lifecycleState := .active },
    { id := 2, assetTypeId := 1, lifecycleState := .maintenance }], by decide⟩
  requestTypes := ⟨[{ id := 1, active := true }], by decide⟩
  workOrders := Table.empty

/-- The first run fails for the second asset, the next one makes up for it. -/
def failsOnce : List PmEvent :=
  [.generate 1777604400000 { rpc := fun _ assetId => assetId == 2 }, .generate 1777690800000 {}]

theorem reachesDue_onePlan {plan : MaintenancePlan} (hrows : db.plans.rows = [plan])
    (hselected : selectedPlans db runAt batchSize = [plan])
    (hassets : (planAssets db plan).length ≤ maxRows) :
    ReachesDue batchSize db (.generate runAt faults) := by
  have hone : ∀ p, Due db runAt p → p = plan := fun p hdue => by
    have hmem := hdue.mem
    rw [hrows] at hmem
    exact List.mem_singleton.mp hmem
  refine ⟨.inl fun q hdue => ?_, readsAssets_of_page fun p hdue => ?_⟩
  · rw [hselected, hone q hdue]
    exact List.mem_singleton_self _
  · rwa [hone p hdue]

theorem pmLaw_failsOnce : PmLaw 100 twoAssets failsOnce :=
  pmLaw_of_guarded ⟨@reachesDue_onePlan _ _ _ _ (planOfType 1777604400000) rfl rfl (by decide),
    @reachesDue_onePlan _ _ _ _ (planOfType 1777604400000) rfl rfl (by decide), trivial⟩

/-! ## A batch of plans that are not due -/

def planEvery30Days (id leadDays : Nat) (nextRunAt : Int) : MaintenancePlan where
  id := id
  active := true
  target := .asset 1
  requestTypeId := 1
  cadence := ⟨30, .day, by decide⟩
  leadDays := leadDays
  nextRunAt := nextRunAt

/-- A hundred plans that run tomorrow and have no lead days, and one that runs in ten days and has
thirty. -/
def hundredAndOne : PmDb where
  plans :=
    { rows := (List.range 100).map (fun k => planEvery30Days (k + 1) 0 1777690800000) ++
        [planEvery30Days 101 30 1778468400000]
      nodup := by decide +kernel }
  assets := ⟨[{ id := 1, assetTypeId := 1, lifecycleState := .active }], by decide⟩
  requestTypes := ⟨[{ id := 1, active := true }], by decide⟩
  workOrders := Table.empty

/-- On 1 May 2026, at 03:00, the last plan is due, and no plan is taken up. -/
theorem hundredAndOne_passedOver :
    ¬PmLaw 100 hundredAndOne [.generate 1777604400000 {}] := by
  intro hlaw
  have hdue : Due hundredAndOne 1777604400000 (planEvery30Days 101 30 1778468400000) := by
    refine ⟨?_, rfl, by decide +kernel⟩
    exact List.mem_append_right _ (List.mem_singleton_self _)
  have hnone : (generateForTenant 100 hundredAndOne 1777604400000 {}).seenPlanIds = [] := by
    decide +kernel
  rcases (hlaw.run [] 1777604400000 {} [] rfl).attempts _ hdue with hseen | hcount
  · rw [show run (pmStep 100) hundredAndOne [] = hundredAndOne from rfl, hnone] at hseen
    cases hseen
  · rw [show run (pmStep 100) hundredAndOne [] = hundredAndOne from rfl, hnone] at hcount
    exact absurd hcount (by decide)

end Prequest.Maintenance
