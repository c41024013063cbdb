import Mathlib.Data.List.Induction
import Prequest.Lib.Run
import Prequest.Booking.Create

/-!
# The approvers of the room rule

Once a booking is created and waits, every approver of its room rule should have
one row, in one chain with the rule's threshold, beside the rows of the services.
The rows are written by the step after the transaction, unless the booking has
approval rows already; the rows of its services count as such.

* `roomApproversAsked_iff`: the law holds exactly when no service has an approver.
-/

namespace Prequest.Booking

open Prequest.Lib Prequest.Approval Prequest.Command Prequest.Orders

/-! ## The law -/

def approvalsAbout (approvals : Table ApprovalRow) (bookingId : Nat) : List ApprovalRow :=
  approvals.rows.filter (aboutBooking bookingId)

/-- The rows `rows` of a booking ask every approver of the rule once, in one chain with the rule's
threshold, and the other rows are those with the ids `serviceIds`. -/
structure RoomApproversAsked (rows : List ApprovalRow) (config : ApprovalConfig)
    (serviceIds : List Nat) : Prop where
  approvers : ((rows.filter fun r => !fromServices r).map approverOf).Perm
    (config.requiredApprovers.map some)
  chain : ∃ chainId, ∀ r ∈ rows, fromServices r = false →
    r.approvalChainId = some chainId ∧ r.chainThreshold = config.threshold.getD .all
  services : (rows.filter fromServices).map ApprovalRow.id = serviceIds

section

variable (env : CreateEnv) (input : CreateInput)

/-- The rule asks for an approval: that of the room, or the winning one of several rooms. -/
def RuleAsks (config : ApprovalConfig) : CreateService → Prop
  | .bookingFlow spaceId =>
      (env.resolve spaceId).final = .requireApproval ∧
        (env.resolve spaceId).approvalConfig = some config
  | .multiRoom =>
      ∃ outcome, winningOutcome (input.spaceIds.eraseDups.map env.resolve) = some outcome ∧
        outcome.approvalConfig = some config

def serviceApprovalIds (plan : CreatePlan) : List Nat :=
  if input.services.isEmpty then []
  else plan.attachPlan.approvals.map fun a => env.uuid a.id

def NoServiceApprover : Prop :=
  ∀ line ∈ input.services, ¬ ∃ rule ∈ matchedRules env.plan line, rule.effect = .requireApproval ∧
    ∃ target ∈ extractApproverTargets rule,
      resolveApproverTarget env.plan.directory input.costCenterId target.2 ≠ []

structure FreshRequest (store : CreateStore) : Prop where
  operation : store.operations.get? input.idempotencyKey = none
  approvals : approvalsAbout store.db.approvals (createBookingId env input) = []

end

/-! ## Plans -/

/-- What the plan of either service has of the request. -/
structure PlanOf (env : CreateEnv) (input : CreateInput) (plan : CreatePlan) : Prop where
  bookingId : plan.bookingInput.bookingId = createBookingId env input
  targets : ∀ a ∈ plan.attachPlan.approvals,
    a.targetEntityId = createBookingId env input ∧ a.approvalChainId.isSome = true
  withServices : input.services.isEmpty = false →
    ∃ locationId, servicesPlan env input locationId = .ok plan.attachPlan
  withoutServices : input.services.isEmpty = true → plan.attachPlan.approvals = [] ∨
    ∃ config, plan.approvalConfig = some config ∧
      plan.attachPlan.approvals = (canonicalApproverSort config.requiredApprovers).map
        (flatApproval env input (config.threshold.getD .all))

variable {locationId : Nat}

section

variable {env : CreateEnv} {input : CreateInput} {plan : CreatePlan}

variable {attachPlan : AttachPlan}

theorem servicesPlan_ok (h : servicesPlan env input locationId = .ok attachPlan) :
    ∃ args : BuildAttachPlanArgs, buildAttachPlan env.plan args = .ok attachPlan ∧
      args.services = input.services ∧ args.costCenterId = input.costCenterId ∧
      args.bookingId = createBookingId env input := by
  unfold servicesPlan at h
  split at h
  · cases h
  · rename_i plan hplan
    cases h
    exact ⟨_, hplan, rfl, rfl, rfl⟩

theorem targets_of_buildAttachPlan {args : BuildAttachPlanArgs}
    (h : buildAttachPlan env.plan args = .ok attachPlan) :
    ∀ a ∈ attachPlan.approvals,
      a.targetEntityId = args.bookingId ∧ a.approvalChainId.isSome = true := by
  intro a ha
  rw [(buildAttachPlan_ok h).1, planApprovals] at ha
  split at ha
  · exact absurd ha List.not_mem_nil
  · obtain ⟨personId, _, rfl⟩ := List.mem_map.mp ha
    exact ⟨rfl, rfl⟩

theorem targets_of_servicesPlan (h : servicesPlan env input locationId = .ok attachPlan) :
    ∀ a ∈ attachPlan.approvals,
      a.targetEntityId = createBookingId env input ∧ a.approvalChainId.isSome = true := by
  obtain ⟨args, hbuild, _, _, hbooking⟩ := servicesPlan_ok h
  rw [← hbooking]
  exact targets_of_buildAttachPlan hbuild

theorem targets_flat (config : ApprovalConfig) :
    ∀ a ∈ (canonicalApproverSort config.requiredApprovers).map
        (flatApproval env input (config.threshold.getD .all)),
      a.targetEntityId = createBookingId env input ∧ a.approvalChainId.isSome = true := by
  intro a ha
  obtain ⟨approver, _, rfl⟩ := List.mem_map.mp ha
  exact ⟨rfl, rfl⟩

theorem flatPlan_approvals (outcome : RoomOutcome) :
    (flatPlan env input outcome).approvals = [] ∨
      ∃ config, outcome.approvalConfig = some config ∧
        (flatPlan env input outcome).approvals =
          (canonicalApproverSort config.requiredApprovers).map
            (flatApproval env input (config.threshold.getD .all)) := by
  unfold flatPlan
  split
  · rename_i config _ hconfig _
    exact .inr ⟨config, hconfig, rfl⟩
  · exact .inl rfl

theorem createPlan_planOf {spaceId : Nat} (h : createPlan env input spaceId = .ok plan) :
    PlanOf env input plan := by
  unfold createPlan at h
  split at h
  · cases h
  split at h
  · cases h
  simp only at h
  split at h
  · cases h
  rename_i attachPlan hattach
  cases h
  cases hservices : input.services.isEmpty with
  | true =>
    simp only [hservices, if_true, Except.ok.injEq] at hattach
    subst hattach
    have hflat := @flatPlan_approvals env input (env.resolve spaceId)
    refine ⟨rfl, ?_, fun hno => absurd hservices (by simp [hno]), fun _ => hflat⟩
    intro a ha
    rcases hflat with hnil | ⟨config, _, hrows⟩
    · rw [hnil] at ha
      exact absurd ha List.not_mem_nil
    · rw [hrows] at ha
      exact targets_flat config a ha
  | false =>
    simp only [hservices, Bool.false_eq_true, if_false] at hattach
    exact ⟨rfl, targets_of_servicesPlan hattach, fun _ => ⟨spaceId, hattach⟩,
      fun hyes => absurd hservices (by simp [hyes])⟩

theorem groupPlan_planOf (h : groupPlan env input = .ok plan) : PlanOf env input plan := by
  simp only [groupPlan] at h
  split at h
  · cases h
  split at h
  · cases h
  split at h
  · cases h
  split at h
  · cases h
  rename_i attachPlan hattach
  cases h
  cases hservices : input.services.isEmpty with
  | true =>
    simp only [hservices, if_true, Except.ok.injEq] at hattach
    subst hattach
    exact ⟨rfl, fun a ha => absurd ha List.not_mem_nil,
      fun hno => absurd hservices (by simp [hno]), fun _ => .inl rfl⟩
  | false =>
    simp only [hservices, Bool.false_eq_true, if_false] at hattach
    exact ⟨rfl, targets_of_servicesPlan hattach, fun _ => ⟨_, hattach⟩,
      fun hyes => absurd hservices (by simp [hyes])⟩

theorem planFor_planOf {service : CreateService} (h : planFor env input service = .ok plan) :
    PlanOf env input plan := by
  cases service with
  | bookingFlow spaceId => exact createPlan_planOf h
  | multiRoom => exact groupPlan_planOf h

theorem approvalConfig_of_ruleAsks {service : CreateService} {config : ApprovalConfig}
    (h : planFor env input service = .ok plan) (hasks : RuleAsks env input config service) :
    plan.approvalConfig = some config := by
  cases service with
  | bookingFlow spaceId =>
    simp only [planFor, createPlan] at h
    split at h
    · cases h
    split at h
    · cases h
    split at h
    · cases h
    cases h
    exact hasks.2
  | multiRoom =>
    obtain ⟨outcome, hwinner, hconfig⟩ := hasks
    simp only [planFor, groupPlan] at h
    split at h
    · cases h
    split at h
    · cases h
    split at h
    · cases h
    split at h
    · cases h
    cases h
    simp only [hwinner, Option.bind_some, hconfig]

end

/-! ## Calls -/

/-- The rows the transaction inserts. -/
def planRows (env : CreateEnv) (plan : CreatePlan) (now : Nat) : List ApprovalRow :=
  plan.attachPlan.approvals.map (approvalRowOfPlan env.uuid now)

/-- The transaction has committed for the request: the booking has the rows of its plan, or, where
the plan has none, those of the step after it. -/
inductive Committed (env : CreateEnv) (input : CreateInput) (plan : CreatePlan)
    (config : ApprovalConfig) (store : CreateStore) : Prop where
  | planned
      (hoperation : ∃ result, store.operations.get? input.idempotencyKey =
        some ⟨input.idempotencyKey, (plan.bookingInput, plan.attachPlan), .success result⟩)
      (hdeny : plan.attachPlan.anyDeny = false) (now : Nat)
      (hrows : approvalsAbout store.db.approvals (createBookingId env input) =
        planRows env plan now)
  | asked
      (hoperation : ∃ result, store.operations.get? input.idempotencyKey =
        some ⟨input.idempotencyKey, (plan.bookingInput, plan.attachPlan), .success result⟩)
      (hdeny : plan.attachPlan.anyDeny = false) (hnone : plan.attachPlan.approvals = [])
      (draws : Draws)
      (hrows : approvalsAbout store.db.approvals (createBookingId env input) =
        roomApprovalRows draws (createBookingId env input) config)

def Progress (env : CreateEnv) (input : CreateInput) (plan : CreatePlan) (config : ApprovalConfig)
    (store : CreateStore) : Prop :=
  FreshRequest env input store ∨ Committed env input plan config store

/-- A call has nothing left to do: the rows of the plan are there, or those of the step after it. -/
def Asked (env : CreateEnv) (input : CreateInput) (plan : CreatePlan) (config : ApprovalConfig)
    (store : CreateStore) : Prop :=
  plan.attachPlan.anyDeny = false ∧
    ((plan.attachPlan.approvals ≠ [] ∧ ∃ now,
        approvalsAbout store.db.approvals (createBookingId env input) = planRows env plan now) ∨
      (plan.attachPlan.approvals = [] ∧ ∃ draws,
        approvalsAbout store.db.approvals (createBookingId env input) =
          roomApprovalRows draws (createBookingId env input) config))

variable {attachPlan : AttachPlan} {bookingId : Nat} {draws : Draws}

section

variable {env : CreateEnv} {input : CreateInput} {plan : CreatePlan} {config : ApprovalConfig}
  {store store' : CreateStore}

variable {approvals : Table ApprovalRow} {approvals' : Table ApprovalRow} {rows : List ApprovalRow}

theorem insertApprovalRows_rows (h : insertApprovalRows approvals rows = .ok approvals') :
    approvals'.rows = approvals.rows ++ rows := by
  unfold insertApprovalRows at h
  split at h
  · rename_i hinsert
    cases h
    exact insertApprovers_rows hinsert
  · cases h

variable {now : Nat}

theorem insertPlan_approvals {uuid : PlanUuid → Nat} {db db' : BookingDb}
    {bookingInput : BookingInput} {key : String}
    (h : insertPlan uuid db bookingInput attachPlan key now = .ok db') :
    db'.approvals.rows =
      db.approvals.rows ++ attachPlan.approvals.map (approvalRowOfPlan uuid now) := by
  simp only [insertPlan] at h
  split at h
  · cases h
  split at h
  · cases h
  split at h
  · cases h
  split at h
  · cases h
  split at h
  · cases h
  split at h
  · cases h
  split at h
  · cases h
  rename_i happrovals
  split at h
  · cases h
  cases h
  exact insertApprovalRows_rows happrovals

theorem approvalsAbout_append (h : approvals'.rows = approvals.rows ++ rows)
    (hrows : ∀ r ∈ rows, aboutBooking bookingId r = true) :
    approvalsAbout approvals' bookingId = approvalsAbout approvals bookingId ++ rows := by
  rw [approvalsAbout, h, List.filter_append, List.filter_eq_self.mpr hrows]
  rfl

theorem hasRoomApprovalRows_iff : hasRoomApprovalRows approvals bookingId = true ↔
      ∃ r ∈ approvalsAbout approvals bookingId, r.approvalChainId.isSome = true ∧
        (r.status = .pending ∨ r.status = .approved) := by
  simp only [hasRoomApprovalRows, approvalsAbout, List.any_eq_true, List.mem_filter,
    Bool.and_eq_true, Bool.or_eq_true, beq_iff_eq]
  constructor
  · intro h
    obtain ⟨r, hr, ⟨habout, hchain⟩, hstatus⟩ := h
    exact ⟨r, ⟨hr, habout⟩, hchain, hstatus⟩
  · intro h
    obtain ⟨r, ⟨hr, habout⟩, hchain, hstatus⟩ := h
    exact ⟨r, hr, ⟨habout, hchain⟩, hstatus⟩

theorem planRows_about (hplan : PlanOf env input plan) (now : Nat) :
    ∀ r ∈ planRows env plan now, aboutBooking (createBookingId env input) r = true := by
  intro r hr
  obtain ⟨a, ha, rfl⟩ := List.mem_map.mp hr
  simp [aboutBooking, approvalRowOfPlan, (hplan.targets a ha).1]

theorem roomApprovalRows_about (draws : Draws) (bookingId : Nat) (config : ApprovalConfig) :
    ∀ r ∈ roomApprovalRows draws bookingId config, aboutBooking bookingId r = true := by
  intro r hr
  obtain ⟨p, _, rfl⟩ := List.mem_map.mp hr
  simp [aboutBooking, roomApprovalRow]

theorem Progress.transact {result : CreateResult} (hplan : PlanOf env input plan)
    (h : Progress env input plan config store)
    (hok : createBookingWithAttachPlan env.uuid env.valid store plan.bookingInput plan.attachPlan
      input.idempotencyKey now = .ok (store', result)) : Committed env input plan config store' := by
  unfold createBookingWithAttachPlan at hok
  rcases h with hfresh | hcommitted
  · rw [gate_eq_proceed.mpr hfresh.operation] at hok
    simp only at hok
    split at hok
    · cases hok
    rename_i hdeny
    split at hok
    · cases hok
    split at hok
    · cases hok
    rename_i db hinsert
    cases hok
    refine .planned ?_ (by simpa using hdeny) now ?_
    · simp only [get?_finish_begin hfresh.operation, if_true]
      exact ⟨_, rfl⟩
    · rw [approvalsAbout_append (insertPlan_approvals hinsert) (planRows_about hplan now),
        hfresh.approvals]
      rfl
  · have hcached : store' = store := by
      obtain ⟨recorded, hop⟩ : ∃ result, store.operations.get? input.idempotencyKey =
          some ⟨input.idempotencyKey, (plan.bookingInput, plan.attachPlan), .success result⟩ := by
        cases hcommitted with
        | planned hoperation => exact hoperation
        | asked hoperation => exact hoperation
      simp only [gate, hop, ne_eq, not_true_eq_false, if_false] at hok
      cases hok
      rfl
    rw [hcached]
    exact hcommitted

theorem hasRoomApprovalRows_of_planRows (hplan : PlanOf env input plan)
    (hne : plan.attachPlan.approvals ≠ [])
    (hrows : approvalsAbout store.db.approvals (createBookingId env input) = planRows env plan now) :
    hasRoomApprovalRows store.db.approvals (createBookingId env input) = true := by
  obtain ⟨a, ha⟩ := List.exists_mem_of_ne_nil _ hne
  refine hasRoomApprovalRows_iff.mpr ⟨approvalRowOfPlan env.uuid now a, ?_, ?_, .inl rfl⟩
  · rw [hrows]
    exact List.mem_map_of_mem ha
  · simpa [approvalRowOfPlan] using (hplan.targets a ha).2

theorem hasRoomApprovalRows_of_roomRows (hne : config.requiredApprovers ≠ [])
    (hrows : approvalsAbout store.db.approvals (createBookingId env input) =
      roomApprovalRows draws (createBookingId env input) config) :
    hasRoomApprovalRows store.db.approvals (createBookingId env input) = true := by
  have hne' : roomApprovalRows draws (createBookingId env input) config ≠ [] := by
    simpa [roomApprovalRows] using hne
  obtain ⟨r, hr⟩ := List.exists_mem_of_ne_nil _ hne'
  refine hasRoomApprovalRows_iff.mpr ⟨r, by rw [hrows]; exact hr, ?_⟩
  obtain ⟨p, _, rfl⟩ := List.mem_map.mp hr
  exact ⟨rfl, .inl rfl⟩

/-- The step after the transaction keeps the rows of the plan and adds those of the rule only when
the booking has none. -/
theorem Committed.fanout (hplan : PlanOf env input plan)
    (hconfig : plan.approvalConfig = some config) (hne : config.requiredApprovers ≠ [])
    (hworkflow : takenOver env plan = false) (h : Committed env input plan config store)
    (hok : ensureRoomApprovalFanout env plan draws store = .ok store') :
    Committed env input plan config store' ∧ Asked env input plan config store' := by
  simp only [ensureRoomApprovalFanout, hconfig, hworkflow, Bool.false_eq_true, if_false,
    createApprovalRows, List.isEmpty_iff, if_neg hne, hplan.bookingId] at hok
  cases h with
  | planned hoperation hdeny now hrows =>
    by_cases hnone : plan.attachPlan.approvals = []
    · have hempty : approvalsAbout store.db.approvals (createBookingId env input) = [] := by
        rw [hrows, planRows, hnone, List.map_nil]
      have hlook : hasRoomApprovalRows store.db.approvals (createBookingId env input) = false := by
        rw [Bool.eq_false_iff, ne_eq, hasRoomApprovalRows_iff, hempty]
        simp
      rw [hlook] at hok
      simp only [Bool.false_eq_true, if_false] at hok
      split at hok
      · cases hok
      rename_i approvals hinsert
      cases hok
      have hrows' : approvalsAbout approvals (createBookingId env input) =
          roomApprovalRows draws (createBookingId env input) config := by
        rw [approvalsAbout_append (insertApprovalRows_rows hinsert)
          (roomApprovalRows_about draws _ config), hempty, List.nil_append]
      exact ⟨.asked hoperation hdeny hnone draws hrows', hdeny, .inr ⟨hnone, draws, hrows'⟩⟩
    · rw [hasRoomApprovalRows_of_planRows hplan hnone hrows] at hok
      cases hok
      exact ⟨.planned hoperation hdeny now hrows, hdeny, .inl ⟨hnone, now, hrows⟩⟩
  | asked hoperation hdeny hnone drawn hrows =>
    rw [hasRoomApprovalRows_of_roomRows hne hrows] at hok
    cases hok
    exact ⟨.asked hoperation hdeny hnone drawn hrows, hdeny, .inr ⟨hnone, drawn, hrows⟩⟩

theorem Progress.attempt (hplan : PlanOf env input plan)
    (hconfig : plan.approvalConfig = some config) (hne : config.requiredApprovers ≠ [])
    (hworkflow : takenOver env plan = false) (h : Progress env input plan config store)
    (a : Attempt) :
    Progress env input plan config (attempt env input.idempotencyKey plan store a).1 ∧
      ((Booking.attempt env input.idempotencyKey plan store a).2 = true →
        Asked env input plan config (Booking.attempt env input.idempotencyKey plan store a).1) := by
  unfold Booking.attempt
  split
  · exact ⟨h, fun hret => absurd hret (by simp)⟩
  · rename_i committed _ hok
    have hcommitted := h.transact hplan hok
    split
    · exact ⟨.inr hcommitted, fun hret => absurd hret (by simp)⟩
    · split
      · exact ⟨.inr hcommitted, fun hret => absurd hret (by simp)⟩
      · rename_i hfanout
        obtain ⟨hnext, hasked⟩ := hcommitted.fanout hplan hconfig hne hworkflow hfanout
        exact ⟨.inr hnext, fun _ => hasked⟩

end

/-! ## Who is asked in the end -/

section

variable {env : CreateEnv} {input : CreateInput} {plan : CreatePlan} {config : ApprovalConfig}

theorem canonicalApproverSort_perm (approvers : List Approver) :
    (canonicalApproverSort approvers).Perm approvers :=
  List.perm_insertionSort _ approvers

theorem approverOf_split {r : ApprovalRow} {approver : Approver}
    (hperson : r.approverPersonId = if approver.type = .person then some approver.id else none)
    (hteam : r.approverTeamId = if approver.type = .team then some approver.id else none) :
    approverOf r = some approver := by
  obtain ⟨type, id⟩ := approver
  unfold approverOf
  rw [hperson, hteam]
  cases type <;> rfl

theorem asked_of_flatRows {now : Nat} :
    RoomApproversAsked
      (((canonicalApproverSort config.requiredApprovers).map
        (flatApproval env input (config.threshold.getD .all))).map (approvalRowOfPlan env.uuid now))
      config [] := by
  have hroom : ∀ r ∈ (((canonicalApproverSort config.requiredApprovers).map
      (flatApproval env input (config.threshold.getD .all))).map (approvalRowOfPlan env.uuid now)),
      fromServices r = false := by
    intro r hr
    obtain ⟨a, ha, rfl⟩ := List.mem_map.mp hr
    obtain ⟨approver, _, rfl⟩ := List.mem_map.mp ha
    rfl
  refine ⟨?_, ⟨env.uuid (.approvalChain input.idempotencyKey), ?_⟩, ?_⟩
  · rw [List.filter_eq_self.mpr fun r hr => by simp [hroom r hr], List.map_map, List.map_map]
    have happrovers : (approverOf ∘ approvalRowOfPlan env.uuid now) ∘
        flatApproval env input (config.threshold.getD .all) = some := by
      funext approver
      exact approverOf_split rfl rfl
    rw [happrovers]
    exact (canonicalApproverSort_perm _).map some
  · intro r hr _
    obtain ⟨a, ha, rfl⟩ := List.mem_map.mp hr
    obtain ⟨approver, _, rfl⟩ := List.mem_map.mp ha
    exact ⟨rfl, rfl⟩
  · rw [List.filter_eq_nil_iff.mpr fun r hr => by simp [hroom r hr]]
    rfl

theorem asked_of_roomApprovalRows :
    RoomApproversAsked (roomApprovalRows draws bookingId config) config [] := by
  have hroom : ∀ r ∈ roomApprovalRows draws bookingId config, fromServices r = false := by
    intro r hr
    obtain ⟨p, _, rfl⟩ := List.mem_map.mp hr
    rfl
  refine ⟨?_, ⟨draws.chainId, ?_⟩, ?_⟩
  · rw [List.filter_eq_self.mpr fun r hr => by simp [hroom r hr], roomApprovalRows, List.map_map]
    have happrovers : (approverOf ∘ fun p : Approver × Nat =>
        roomApprovalRow draws bookingId (config.threshold.getD .all) p.1
          (draws.approvalId p.2)) = fun p => some p.1 := by
      funext p
      exact approverOf_split rfl rfl
    have hmap : (config.requiredApprovers.zipIdx.map fun p => some p.1) =
        (config.requiredApprovers.zipIdx.map Prod.fst).map some := by
      rw [List.map_map]
      rfl
    rw [happrovers, hmap, List.zipIdx_map_fst]
  · intro r hr _
    obtain ⟨p, _, rfl⟩ := List.mem_map.mp hr
    exact ⟨rfl, rfl⟩
  · rw [List.filter_eq_nil_iff.mpr fun r hr => by simp [hroom r hr]]
    rfl

theorem fromServices_of_servicesPlan {locationId now : Nat}
    (h : servicesPlan env input locationId = .ok attachPlan) :
    ∀ a ∈ attachPlan.approvals, fromServices (approvalRowOfPlan env.uuid now a) = true := by
  intro a ha
  obtain ⟨args, hbuild, _⟩ := servicesPlan_ok h
  rw [(buildAttachPlan_ok hbuild).1] at ha
  have hlines := orderLineItemIds_ne_nil ha
  simp only [fromServices, bne_iff_ne, ne_eq]
  intro hscope
  have hnil : (scopeBreakdownOf env.uuid a.scopeBreakdown).orderLineItemIds = [] := by
    rw [show scopeBreakdownOf env.uuid a.scopeBreakdown = {} from hscope]
  exact hlines (List.map_eq_nil_iff.mp hnil)

theorem approvals_eq_nil_iff (h : servicesPlan env input locationId = .ok attachPlan)
    (hdeny : attachPlan.anyDeny = false) :
    attachPlan.approvals = [] ↔ NoServiceApprover env input := by
  obtain ⟨args, hbuild, hservices, hcost, _⟩ := servicesPlan_ok h
  obtain ⟨happrovals, _, hanyDeny, _⟩ := buildAttachPlan_ok hbuild
  rw [happrovals, planApprovals_eq_nil_iff (hanyDeny ▸ hdeny), NoServiceApprover, hservices]
  simp only [HasApprover, hcost]

theorem Asked.asked_iff {store : CreateStore} (hplan : PlanOf env input plan)
    (hconfig : plan.approvalConfig = some config) (hne : config.requiredApprovers ≠ [])
    (h : Asked env input plan config store) :
    RoomApproversAsked (approvalsAbout store.db.approvals (createBookingId env input)) config
        (serviceApprovalIds env input plan) ↔ NoServiceApprover env input := by
  obtain ⟨hdeny, ⟨hrowsNe, now, hrows⟩ | ⟨hnone, draws, hrows⟩⟩ := h
  · rw [hrows]
    cases hservices : input.services.isEmpty with
    | true =>
      refine iff_of_true ?_ ?_
      · rcases hplan.withoutServices hservices with hnil | ⟨config', hconfig', hflat⟩
        · exact absurd hnil hrowsNe
        · rw [hconfig, Option.some.injEq] at hconfig'
          rw [planRows, hflat, ← hconfig', serviceApprovalIds, hservices]
          exact asked_of_flatRows
      · intro line hline
        rw [List.isEmpty_iff.mp hservices] at hline
        exact absurd hline List.not_mem_nil
    | false =>
      obtain ⟨locationId, hservicesPlan⟩ := hplan.withServices hservices
      refine iff_of_false ?_ fun hno =>
        hrowsNe ((approvals_eq_nil_iff hservicesPlan hdeny).mpr hno)
      intro hlaw
      have happrovers := hlaw.approvers
      have hempty : (planRows env plan now).filter (fun r => !fromServices r) = [] := by
        refine List.filter_eq_nil_iff.mpr ?_
        intro r hr
        obtain ⟨a, ha, rfl⟩ := List.mem_map.mp hr
        simp [fromServices_of_servicesPlan hservicesPlan a ha]
      rw [hempty, List.map_nil, List.nil_perm, List.map_eq_nil_iff] at happrovers
      exact hne happrovers
  · refine iff_of_true ?_ ?_
    · have hids : serviceApprovalIds env input plan = [] := by
        unfold serviceApprovalIds
        split
        · rfl
        · rw [hnone, List.map_nil]
      rw [hrows, hids]
      exact asked_of_roomApprovalRows
    · cases hservices : input.services.isEmpty with
      | true =>
        intro line hline
        rw [List.isEmpty_iff.mp hservices] at hline
        exact absurd hline List.not_mem_nil
      | false =>
        obtain ⟨locationId, hservicesPlan⟩ := hplan.withServices hservices
        exact (approvals_eq_nil_iff hservicesPlan hdeny).mp hnone

end

/-- One call after another for the request. -/
def attemptOne (env : CreateEnv) (key : String) (plan : CreatePlan) (store : CreateStore)
    (a : Attempt) : CreateStore :=
  (attempt env key plan store a).1

/-- After any calls for a request, the last of which returns, every approver of the rule that asks
has one row, beside those of the services, exactly when no service has an approver. -/
theorem roomApproversAsked_iff {env : CreateEnv} {input : CreateInput} {service : CreateService}
    {plan : CreatePlan} {config : ApprovalConfig} {store : CreateStore}
    (hplan : planFor env input service = .ok plan) (hasks : RuleAsks env input config service)
    (happrovers : config.requiredApprovers ≠ []) (hworkflow : takenOver env plan = false)
    (hfresh : FreshRequest env input store) (attempts : List Attempt) (last : Attempt)
    (hreturns : (attempt env input.idempotencyKey plan
      (run (attemptOne env input.idempotencyKey plan) store attempts) last).2 = true) :
    RoomApproversAsked
        (approvalsAbout (run (attemptOne env input.idempotencyKey plan) store
          (attempts ++ [last])).db.approvals (createBookingId env input)) config
        (serviceApprovalIds env input plan) ↔ NoServiceApprover env input := by
  have hplanOf := planFor_planOf hplan
  have hconfig := approvalConfig_of_ruleAsks hplan hasks
  have hprogress : Progress env input plan config
      (run (attemptOne env input.idempotencyKey plan) store attempts) :=
    run_invariant (fun store a h =>
      (h.attempt hplanOf hconfig happrovers hworkflow a).1) (.inl hfresh) attempts
  rw [run_append]
  exact ((hprogress.attempt hplanOf hconfig happrovers hworkflow last).2
    hreturns).asked_iff hplanOf hconfig happrovers

/-! ## A room rule and a service rule -/

/-- Identifiers that differ for the rows of one request. -/
def exampleUuid : PlanUuid → Nat
  | .booking _ => 1
  | .slot _ n => 100 + n
  | .order _ _ => 200
  | .oli _ _ _ => 300
  | .assetReservation _ _ _ => 400
  | .approval _ person => 500 + person
  | .approvalChain _ => 600

/-- Every room asks person 8, and the service rules are those given. -/
def exampleEnv (rules : List ServiceRuleRow) : CreateEnv where
  uuid := exampleUuid
  plan := envOfRules rules
  loadSpace := fun _ => some {}
  resolve := fun _ =>
    { final := .requireApproval, approvalConfig := some { requiredApprovers := [⟨.person, 8⟩] } }
  snapshotBuffers := fun _ => (0, 0)
  computeCost := fun _ => none
  policySnapshot := fun _ => ""
  hasOverrideRules := false
  hasOverrideReason := false
  workflowService := false
  valid := fun _ _ => true

/-- A room with coffee for eight. -/
def coffeeRequest : CreateInput where
  spaceIds := [10]
  requesterPersonId := 3
  startAt := 600
  endAt := 660
  services := [coffeeLine]
  idempotencyKey := "key-1"

def coffeeCreatePlan (rules : List ServiceRuleRow) : CreatePlan where
  bookingInput := bookingInputOf (exampleEnv rules) coffeeRequest [10] 10 none
  attachPlan := coffeePlan rules
  approvalConfig := some { requiredApprovers := [⟨.person, 8⟩] }
  workflowDefinitionId := none

def emptyStore : CreateStore where
  db := { bookings := Table.empty, slots := Table.empty, approvals := Table.empty }

def exampleDraws : Draws where
  chainId := 700
  approvalId := fun k => 710 + k
  now := 1000

/-- The coffee asks person 7, and person 8 is not asked about the room. -/
theorem cateringAndRoom_roomNotAsked :
    ¬ ∀ (env : CreateEnv) (input : CreateInput) (service : CreateService) (plan : CreatePlan)
      (config : ApprovalConfig) (store : CreateStore) (attempts : List Attempt) (last : Attempt),
      planFor env input service = .ok plan → RuleAsks env input config service →
        config.requiredApprovers ≠ [] → takenOver env plan = false → FreshRequest env input store →
        (attempt env input.idempotencyKey plan
          (run (attemptOne env input.idempotencyKey plan) store attempts) last).2 = true →
        RoomApproversAsked
          (approvalsAbout (run (attemptOne env input.idempotencyKey plan) store
            (attempts ++ [last])).db.approvals (createBookingId env input)) config
          (serviceApprovalIds env input plan) := by
  intro hlaw
  have hasked := hlaw (exampleEnv [approverRule]) coffeeRequest (.bookingFlow 10)
    (coffeeCreatePlan [approverRule]) _ emptyStore [] { draws := exampleDraws } rfl ⟨rfl, rfl⟩
    (by decide) rfl ⟨rfl, rfl⟩ (by decide +kernel)
  have happrovers := hasked.approvers
  revert happrovers
  decide +kernel

/-- Without a service rule, a call that is cut off and a second one ask person 8 once. -/
theorem roomApproversAsked_coffeeTwice :
    RoomApproversAsked
      (approvalsAbout (run (attemptOne (exampleEnv []) "key-1" (coffeeCreatePlan [])) emptyStore
        [{ draws := exampleDraws, interrupted := true }, { draws := exampleDraws }]).db.approvals 1)
      { requiredApprovers := [⟨.person, 8⟩] } [] := by
  have hiff := @roomApproversAsked_iff (exampleEnv []) coffeeRequest (.bookingFlow 10)
    (coffeeCreatePlan []) _ emptyStore rfl ⟨rfl, rfl⟩ (by decide) rfl ⟨rfl, rfl⟩
    [{ draws := exampleDraws, interrupted := true }] { draws := exampleDraws } (by decide +kernel)
  refine hiff.mpr ?_
  intro line hline hasks
  obtain ⟨rule, hrule, _⟩ := hasks
  have hnone : matchedRules (exampleEnv []).plan line = [] := rfl
  rw [hnone] at hrule
  exact List.not_mem_nil hrule

end Prequest.Booking
