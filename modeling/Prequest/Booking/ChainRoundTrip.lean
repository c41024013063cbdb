import Prequest.Approval.BookingGrantRun
import Prequest.Booking.ChainReading
import Prequest.Booking.Create
import Prequest.Workflow.CompiledApproval

/-!
# Approval chains, written and read back

An approval configuration becomes approval rows in three places: when a booking
is created, when an edit replaces the chain, and when a workflow reaches an
approval node. The planner of an edit reads the rows back as a configuration and
compares it with what the rules ask for now.

* `chainRoundTrips_iff`: when the configuration is read back.
* `workflowChain_readAsAny`: a chain of a workflow that needs all its approvers.
-/

namespace Prequest.Booking

open Prequest.Lib Prequest.Approval
open Prequest.Workflow (ApprovalEnv Node askRows executeApproval insertApprovers_of_askApprovers
  nodeThreshold projectLegacyEntityType workflowApprovalRow workflowGroup)

/-! ## The producers -/

inductive Producer where
  | createApprovalRows
  | editBooking
  | approvalNode
  deriving DecidableEq, Repr

/-- The `chain_threshold` that a producer writes; an edit leaves it to the default. -/
def Producer.column (threshold : ChainThreshold) : Producer → ChainThreshold
  | .editBooking => .all
  | _ => threshold

/-- The producer inserts the rows of the configuration, as a chain, into the table. -/
inductive Produces (bookingId : Nat) (config : ApprovalConfig) (before : Table ApprovalRow) :
    Producer → Nat → Table ApprovalRow → Prop where
  | createApprovalRows {draws : Draws} {approvals : Table ApprovalRow}
      (hnone : hasRoomApprovalRows before bookingId = false)
      (hcreate : createApprovalRows before draws bookingId config = .ok approvals) :
      Produces bookingId config before .createApprovalRows draws.chainId approvals
  | editBooking {call : EditCall} {action : EditAction} {approvals : Table ApprovalRow}
      (hbooking : call.bookingId = bookingId) (hinserts : action.inserts = true)
      (hconfig : call.plan.approval.newChainConfig = shapeChainConfigForPlan (some config))
      (hedit : approvalsAfterEdit call before action = .ok approvals) :
      Produces bookingId config before .editBooking call.newChainId approvals
  | approvalNode {env : ApprovalEnv} {instanceId : Nat} {node : Node} {items : List Workflow.Item}
      {approvals : Table ApprovalRow} (hentity : env.entity = .ok (.booking, bookingId))
      (hitems : node.config.get "required_approvers" = some (.items items))
      (hnames : List.Forall₂ (Workflow.Names env) items config.requiredApprovers)
      (hthreshold : nodeThreshold (node.config.get "threshold") =
        some (config.threshold.getD .all))
      (hexecute : executeApproval env instanceId node before = (approvals, none)) :
      Produces bookingId config before .approvalNode env.chainId approvals

/-- The rows of a chain, as its producer writes them, whatever has been answered since. -/
structure ChainOf (producer : Producer) (config : ApprovalConfig) (bookingId : Nat)
    (rows : List ApprovalRow) : Prop where
  approvers : (rows.map approverOf).Perm (config.requiredApprovers.map some)
  about : ∀ r ∈ rows, aboutBooking bookingId r = true
  column : ∀ r ∈ rows, r.chainThreshold = producer.column (config.threshold.getD .all)
  marked : ∀ r ∈ rows, r.parallelGroup = some (parallelMarker bookingId) ↔
    producer ≠ .approvalNode ∧ config.threshold.getD .all = .all

section

variable {bookingId chainId : Nat} {config : ApprovalConfig} {before approvals : Table ApprovalRow}
  {old : List ApprovalRow}

theorem chainRows_append {rows : List ApprovalRow} (happend : approvals.rows = old ++ rows)
    (hfresh : ∀ r ∈ old, r.approvalChainId ≠ some chainId)
    (hchain : ∀ r ∈ rows, r.approvalChainId = some chainId) :
    chainRows approvals chainId = rows := by
  have hold : (old.filter fun r => r.approvalChainId == some chainId) = [] :=
    List.filter_eq_nil_iff.mpr fun r hr => by simpa using hfresh r hr
  have hnew : (rows.filter fun r => r.approvalChainId == some chainId) = rows :=
    List.filter_eq_self.mpr fun r hr => by simpa using hchain r hr
  rw [chainRows, happend, List.filter_append, hold, hnew, List.nil_append]

theorem workflowGroup_ne_parallelMarker (nodeId : String) (instanceId bookingId : Nat) :
    workflowGroup nodeId instanceId ≠ parallelMarker bookingId := by
  intro h
  have hfirst := congrArg (fun s : String => s.toList.head?) h
  simp [workflowGroup, parallelMarker] at hfirst

structure IsChainRow (producer : Producer) (config : ApprovalConfig) (bookingId chainId : Nat)
    (approver : Approver) (r : ApprovalRow) : Prop where
  approver : approverOf r = some approver
  about : aboutBooking bookingId r = true
  chain : r.approvalChainId = some chainId
  column : r.chainThreshold = producer.column (config.threshold.getD .all)
  marked : r.parallelGroup = some (parallelMarker bookingId) ↔
    producer ≠ .approvalNode ∧ config.threshold.getD .all = .all
  pending : r.status = .pending

theorem chainOf_rows {producer : Producer} (row : Approver → Nat → ApprovalRow)
    {approvers : List Approver} (hperm : approvers.Perm config.requiredApprovers)
    (hrow : ∀ approver i, IsChainRow producer config bookingId chainId approver (row approver i))
    (happend : approvals.rows = old ++ approvers.zipIdx.map fun p => row p.1 p.2)
    (hfresh : ∀ r ∈ old, r.approvalChainId ≠ some chainId) :
    ChainOf producer config bookingId (chainRows approvals chainId) ∧
      ∀ r ∈ chainRows approvals chainId, r.status = .pending := by
  have hof : ∀ r ∈ approvers.zipIdx.map fun p => row p.1 p.2,
      ∃ approver, IsChainRow producer config bookingId chainId approver r := by
    intro r hr
    obtain ⟨p, _, rfl⟩ := List.mem_map.mp hr
    exact ⟨p.1, hrow p.1 p.2⟩
  have hrows := chainRows_append happend hfresh fun r hr => (hof r hr).choose_spec.chain
  rw [hrows]
  refine ⟨⟨?_, fun r hr => (hof r hr).choose_spec.about, fun r hr => (hof r hr).choose_spec.column,
    fun r hr => (hof r hr).choose_spec.marked⟩, fun r hr => (hof r hr).choose_spec.pending⟩
  have hmap : (approvers.zipIdx.map fun p => row p.1 p.2).map approverOf = approvers.map some := by
    rw [List.map_map]
    conv_rhs => rw [← List.zipIdx_map_fst 0 approvers, List.map_map]
    exact List.map_congr_left fun p _ => (hrow p.1 p.2).approver
  rw [hmap]
  exact hperm.map some

theorem chainOf_produces {producer : Producer}
    (h : Produces bookingId config before producer chainId approvals)
    (hfresh : ∀ r ∈ before.rows, r.approvalChainId ≠ some chainId)
    (hsome : config.requiredApprovers ≠ []) :
    ChainOf producer config bookingId (chainRows approvals chainId) ∧
      ∀ r ∈ chainRows approvals chainId, r.status = .pending := by
  have hnonempty : config.requiredApprovers.isEmpty = false := by simpa using hsome
  cases h with
  | @createApprovalRows draws _ hnone hcreate =>
    rw [createApprovalRows, hnonempty, hnone] at hcreate
    have hinsert : insertApprovers before (roomApprovalRows draws bookingId config) =
        .ok approvals := by
      have hrows : insertApprovalRows before (roomApprovalRows draws bookingId config) =
        .ok approvals := hcreate
      unfold insertApprovalRows at hrows
      split at hrows
      · rename_i inserted hinserted
        rw [hinserted, Except.ok.inj hrows]
      · cases hrows
    refine chainOf_rows
      (fun approver i =>
        roomApprovalRow draws bookingId (config.threshold.getD .all) approver (draws.approvalId i))
      (List.Perm.refl _) (fun approver i => ?_) (insertApprovers_rows hinsert) hfresh
    obtain ⟨type, id⟩ := approver
    refine ⟨?_, by simp [aboutBooking, roomApprovalRow], rfl, rfl, by simp [roomApprovalRow], rfl⟩
    cases type <;> rfl
  | @editBooking call action _ hbooking hinserts hconfig hedit =>
    have hshape : shapeChainConfigForPlan (some config) = some
        { requiredApprovers := canonicalApproverSort config.requiredApprovers
          threshold := config.threshold.getD .all } := by
      rw [shapeChainConfigForPlan, hnonempty]
      rfl
    unfold approvalsAfterEdit at hedit
    rw [hinserts, if_pos rfl] at hedit
    split at hedit
    · cases hedit
    · rename_i chain hchain
      have hconfig' : chain =
          { requiredApprovers := canonicalApproverSort config.requiredApprovers
            threshold := config.threshold.getD .all } := by
        unfold approversToInsert at hchain
        rw [hconfig, hshape] at hchain
        simp only at hchain
        split at hchain
        · cases hchain
        · split at hchain
          · cases hchain
          · exact (Except.ok.inj hchain).symm
      subst hconfig'
      refine chainOf_rows
        (fun approver i => newApprovalRow call (config.threshold.getD .all) approver
          (call.newApprovalId i))
        (List.perm_insertionSort beforeApprover _) (fun approver i => ?_)
        (insertApprovers_rows hedit) ?_
      · obtain ⟨type, id⟩ := approver
        refine ⟨?_, by simp [aboutBooking, newApprovalRow, hbooking], rfl, rfl,
          by simp [newApprovalRow, hbooking], rfl⟩
        cases type <;> rfl
      · intro r hr
        split at hr
        · obtain ⟨s, hs, rfl⟩ := Table.mem_update.mp hr
          unfold Table.updated
          split <;> exact hfresh s hs
        · exact hfresh r hr
  | @approvalNode env instanceId node items _ hentity hitems hnames hthreshold hexecute =>
    have hcons : ∃ item rest, items = item :: rest := by
      refine List.exists_cons_of_ne_nil fun hnil => hsome ?_
      rw [hnil, List.forall₂_nil_left_iff] at hnames
      exact hnames
    obtain ⟨item, rest, rfl⟩ := hcons
    let row := workflowApprovalRow env (.booking, bookingId) instanceId node.id
      (config.threshold.getD .all)
    have hinsert : insertApprovers before (askRows env row 0 config.requiredApprovers) =
        .ok approvals := by
      refine insertApprovers_of_askApprovers hnames ?_
      unfold executeApproval at hexecute
      rw [hitems] at hexecute
      simp only [hentity, hthreshold] at hexecute
      exact hexecute
    refine chainOf_rows (Workflow.askRow env row) (List.Perm.refl _) (fun approver i => ?_)
      (insertApprovers_rows hinsert) hfresh
    obtain ⟨type, id⟩ := approver
    refine ⟨?_, ?_, rfl, rfl, ?_, rfl⟩
    · cases type <;> rfl
    · simp [aboutBooking, Workflow.askRow, row, workflowApprovalRow]
    · simp [Workflow.askRow, row, workflowApprovalRow, workflowGroup_ne_parallelMarker]

end

/-! ## A chain while answers come in -/

/-- Somebody is still asked. -/
def ChainLive (rows : List ApprovalRow) : Prop := ∃ r ∈ rows, r.nonTerminal = true

/-- Everybody has approved, or somebody of a chain that needs one approval. -/
def ChainSatisfied (rows : List ApprovalRow) : Prop :=
  (∀ r ∈ rows, r.status = .approved) ∨ ∃ r ∈ rows, r.chainThreshold = .any ∧ r.status = .approved

/-- How far the chain has come. -/
inductive ChainProgress (threshold : ChainThreshold) (rows : List ApprovalRow) : Prop where
  /-- The rows wait, and in an `all` chain some may have approved. -/
  | asked (h : ∀ r ∈ rows, r.status = .pending ∨ threshold = .all ∧ r.status = .approved)
  /-- A row of an `any` chain has approved and the others have expired. -/
  | decided (hany : threshold = .any) {a : ApprovalRow} (ha : a ∈ rows)
      (happroved : a.status = .approved)
      (hothers : ∀ r ∈ rows, r ≠ a → r.status = .expired)
  /-- Nobody is asked any more and the approval is missing. -/
  | ended (hover : ∀ r ∈ rows, r.nonTerminal = false)
      (hmissing : ¬∀ r ∈ rows, r.status = .approved)
      (hnone : threshold = .any → ∀ r ∈ rows, r.status ≠ .approved)

/-- What holds of a chain, from its insert on. -/
structure ChainInv (producer : Producer) (config : ApprovalConfig) (bookingId chainId : Nat)
    (approvals : Table ApprovalRow) : Prop where
  chain : ChainOf producer config bookingId (chainRows approvals chainId)
  newest : NewestChain approvals bookingId chainId
  progress : ChainProgress (producer.column (config.threshold.getD .all)) (chainRows approvals chainId)

section

variable {producer : Producer} {config : ApprovalConfig} {bookingId chainId : Nat}
  {approvals approvals' : Table ApprovalRow} {g : ApprovalRow → ApprovalRow}
  {threshold : ChainThreshold}

theorem isLive_eq_false {r : ApprovalRow} : isLive r = false ↔
    r.status = .rejected ∨ r.status = .expired := by
  unfold isLive
  cases r.status <;> simp

variable {rows : List ApprovalRow}

theorem ChainProgress.map_of_status (h : ChainProgress threshold rows)
    (hstatus : ∀ r ∈ rows, (g r).status = r.status) :
    ChainProgress threshold (rows.map g) := by
  cases h with
  | asked h =>
    refine .asked fun r' hr' => ?_
    obtain ⟨r, hr, rfl⟩ := List.mem_map.mp hr'
    rw [hstatus r hr]
    exact h r hr
  | decided hany ha happroved hothers =>
    refine .decided hany (List.mem_map_of_mem ha) (by rw [hstatus _ ha, happroved]) ?_
    intro r' hr' hne
    obtain ⟨r, hr, rfl⟩ := List.mem_map.mp hr'
    rw [hstatus r hr]
    exact hothers r hr fun heq => hne (by rw [heq])
  | ended hover hmissing hnone =>
    refine .ended (fun r' hr' => ?_) (fun hall => hmissing fun r hr => ?_) fun hany r' hr' => ?_
    · obtain ⟨r, hr, rfl⟩ := List.mem_map.mp hr'
      rw [ApprovalRow.nonTerminal, hstatus r hr]
      exact hover r hr
    · rw [← hstatus r hr]
      exact hall _ (List.mem_map_of_mem hr)
    · obtain ⟨r, hr, rfl⟩ := List.mem_map.mp hr'
      rw [hstatus r hr]
      exact hnone hany r hr

theorem ChainProgress.not_pending (h : ChainProgress threshold rows) :
    (∀ r ∈ rows, r.status = .pending ∨ threshold = .all ∧ r.status = .approved) ∨
      ∀ r ∈ rows, r.status ≠ .pending := by
  cases h with
  | asked h => exact .inl h
  | @decided _ a ha happroved hothers =>
    right
    intro r hr hpending
    by_cases heq : r = a
    · rw [heq, happroved] at hpending
      cases hpending
    · rw [hothers r hr heq] at hpending
      cases hpending
  | ended hover _ _ =>
    right
    intro r hr hpending
    have := hover r hr
    simp [ApprovalRow.nonTerminal, hpending] at this

theorem chainRows_map (chainId : Nat) (hrows : approvals'.rows = approvals.rows.map g)
    (hg : ∀ r ∈ approvals.rows, (g r).AnswerOf r) :
    chainRows approvals' chainId = (chainRows approvals chainId).map g := by
  unfold chainRows
  rw [hrows, List.filter_map]
  refine congrArg (List.map g) (List.filter_congr fun r hr => ?_)
  rw [Function.comp_apply, (hg r hr).approvalChainId_eq]

theorem mem_chainRows {r : ApprovalRow} :
    r ∈ chainRows approvals chainId ↔ r ∈ approvals.rows ∧ r.approvalChainId = some chainId := by
  rw [chainRows, List.mem_filter, beq_iff_eq]

theorem ChainOf.map (h : ChainOf producer config bookingId rows)
    (hg : ∀ r ∈ rows, (g r).AnswerOf r) : ChainOf producer config bookingId (rows.map g) := by
  refine ⟨?_, ?_, ?_, ?_⟩
  · have hsame : (rows.map g).map approverOf = rows.map approverOf := by
      rw [List.map_map]
      refine List.map_congr_left fun r hr => ?_
      have hanswer := hg r hr
      unfold ApprovalRow.AnswerOf at hanswer
      rw [Function.comp_apply, hanswer]
      rfl
    rw [hsame]
    exact h.approvers
  all_goals
    intro r' hr'
    obtain ⟨r, hr, rfl⟩ := List.mem_map.mp hr'
    have hanswer := hg r hr
    unfold ApprovalRow.AnswerOf at hanswer
    rw [hanswer]
  · exact h.about r hr
  · exact h.column r hr
  · exact h.marked r hr

theorem NewestChain.map (h : NewestChain approvals bookingId chainId)
    (hrows : approvals'.rows = approvals.rows.map g)
    (hg : ∀ r ∈ approvals.rows, (g r).AnswerOf r ∧ (r.status ≠ .pending → (g r).status = r.status)) :
    NewestChain approvals' bookingId chainId := by
  have hchain := chainRows_map chainId hrows fun r hr => (hg r hr).1
  have habout : ∀ r ∈ approvals.rows, aboutBooking bookingId (g r) = aboutBooking bookingId r :=
    fun r hr => by
      rw [aboutBooking, aboutBooking, (hg r hr).1.targetEntityType_eq,
        (hg r hr).1.targetEntityId_eq]
  have hcreated : ∀ r ∈ approvals.rows, (g r).createdAt = r.createdAt := fun r hr => by
    have hanswer := (hg r hr).1
    unfold ApprovalRow.AnswerOf at hanswer
    rw [hanswer]
  constructor
  · intro r' hr'
    rw [hchain] at hr'
    obtain ⟨r, hr, rfl⟩ := List.mem_map.mp hr'
    rw [habout r (mem_chainRows.mp hr).1]
    exact h.about r hr
  · intro r' hr' habout' hlive hother s' hs'
    rw [hrows] at hr'
    obtain ⟨r, hr, rfl⟩ := List.mem_map.mp hr'
    rw [hchain] at hs'
    obtain ⟨s, hs, rfl⟩ := List.mem_map.mp hs'
    rw [hcreated r hr, hcreated s (mem_chainRows.mp hs).1]
    rw [habout r hr] at habout'
    rw [(hg r hr).1.approvalChainId_eq] at hother
    refine h.newest r hr habout' ?_ hother s hs
    by_cases hpending : r.status = .pending
    · rw [isLive, hpending]
      rfl
    · rw [isLive, (hg r hr).2 hpending] at hlive
      exact hlive

theorem ChainProgress.approve
    (h : ∀ r ∈ rows, r.status = .pending ∨ ChainThreshold.all = .all ∧ r.status = .approved)
    (hstatus : ∀ r ∈ rows, (g r).status = .approved ∨ (g r).status = r.status) :
    ChainProgress .all (rows.map g) := by
  refine .asked fun r' hr' => ?_
  obtain ⟨r, hr, rfl⟩ := List.mem_map.mp hr'
  rcases hstatus r hr with happroved | hsame
  · exact .inr ⟨rfl, happroved⟩
  · rw [hsame]
    exact h r hr

theorem ChainProgress.reject
    (h : ∀ r ∈ rows, r.status = .pending ∨ threshold = .all ∧ r.status = .approved)
    (hpending : ∀ r ∈ rows, r.status = .pending →
      (g r).status = .rejected ∨ (g r).status = .expired)
    (hkept : ∀ r ∈ rows, r.status ≠ .pending → (g r).status = r.status) :
    ChainProgress threshold (rows.map g) := by
  by_cases hwaits : ∃ r ∈ rows, r.status = .pending
  · obtain ⟨w, hw, hwaits⟩ := hwaits
    refine .ended (fun r' hr' => ?_) (fun hall => ?_) fun hany r' hr' => ?_
    · obtain ⟨r, hr, rfl⟩ := List.mem_map.mp hr'
      rcases h r hr with hr' | ⟨_, hr'⟩
      · rcases hpending r hr hr' with hg | hg <;> simp [ApprovalRow.nonTerminal, hg]
      · simp [ApprovalRow.nonTerminal, hkept r hr (by simp [hr']), hr']
    · have hw' := hall _ (List.mem_map_of_mem hw)
      rcases hpending w hw hwaits with hg | hg <;> simp [hg] at hw'
    · obtain ⟨r, hr, rfl⟩ := List.mem_map.mp hr'
      rcases h r hr with hr' | ⟨hall, _⟩
      · rcases hpending r hr hr' with hg | hg <;> simp [hg]
      · rw [hany] at hall
        cases hall
  · refine ChainProgress.map_of_status (.asked h) fun r hr => hkept r hr fun hr' => hwaits ⟨r, hr, hr'⟩

variable {db : BookingDb}

theorem ChainProgress.grantOne (ruleInTenant : Nat → Bool) (call : BookingGrantCall)
    (habout : ∀ r ∈ chainRows db.approvals chainId, aboutBooking bookingId r = true)
    (hcolumn : ∀ r ∈ chainRows db.approvals chainId, r.chainThreshold = threshold)
    (hasked : ∀ r ∈ chainRows db.approvals chainId,
      r.status = .pending ∨ threshold = .all ∧ r.status = .approved) :
    ChainProgress threshold (chainRows (grantOne ruleInTenant db call).approvals chainId) := by
  have htarget : ∀ r ∈ chainRows db.approvals chainId, r.targetEntityId = bookingId := fun r hr => by
    have := habout r hr
    simp only [aboutBooking, Bool.and_eq_true, beq_iff_eq] at this
    exact this.2
  cases grantOne_step ruleInTenant db call with
  | unchanged hsame =>
    rw [hsame]
    exact .asked hasked
  | @answered decision a hanswers hnot hsame =>
    obtain ⟨g, hrows, hg⟩ := exists_respondRows hanswers
    obtain ⟨ha, _⟩ := get?_eq_some_iff.mp hanswers.hrow
    rw [hsame, chainRows_map chainId hrows fun r hr => (hg r hr).1]
    cases decision with
    | rejected => exact absurd trivial hnot
    | approved =>
      by_cases hin : a ∈ chainRows db.approvals chainId
      · cases threshold with
        | all =>
          refine ChainProgress.approve hasked fun r hr => ?_
          rw [(hg r (mem_chainRows.mp hr).1).2]
          split
          · exact .inl rfl
          · exact .inr rfl
        | any =>
          -- the approved sibling that kept the answer from resolving is of the same chain
          simp only [Resolves, hcolumn a hin, approvedSiblingsInChain] at hnot
          obtain ⟨s, hs, hsibling⟩ := List.countP_pos_iff.mp (Nat.pos_of_ne_zero hnot)
          simp only [sameChain, Bool.and_eq_true, beq_iff_eq] at hsibling
          have hschain : s ∈ chainRows db.approvals chainId :=
            mem_chainRows.mpr ⟨hs, by rw [hsibling.1.1.2, (mem_chainRows.mp hin).2]⟩
          rcases hasked s hschain with hpending | ⟨hall, _⟩
          · rw [hsibling.2] at hpending
            cases hpending
          · cases hall
      · refine ChainProgress.map_of_status (.asked hasked) fun r hr => ?_
        rw [(hg r (mem_chainRows.mp hr).1).2, if_neg]
        intro hid
        exact hin (db.approvals.eq_of_key_eq (mem_chainRows.mp hr).1 ha hid ▸ hr)
  | @resolved decision a hanswers hresolves happrovals =>
    obtain ⟨g, hrows, hg⟩ := exists_resolvedRows hanswers
    obtain ⟨ha, _⟩ := get?_eq_some_iff.mp hanswers.hrow
    rw [happrovals, chainRows_map chainId hrows fun r hr => (hg r hr).1]
    have hstatus : ∀ r ∈ chainRows db.approvals chainId, (g r).status = statusAfter decision a r :=
      fun r hr => (hg r (mem_chainRows.mp hr).1).2
    have hkept : ∀ r ∈ chainRows db.approvals chainId, r.status ≠ .pending →
        (g r).status = r.status := fun r hr hnot => by
      rw [hstatus r hr, statusAfter_of_not_pending hanswers (mem_chainRows.mp hr).1 hnot]
    have hsame : ∀ r ∈ chainRows db.approvals chainId, r.id = a.id → r = a := fun r hr hid =>
      db.approvals.eq_of_key_eq (mem_chainRows.mp hr).1 ha hid
    by_cases hin : a ∈ chainRows db.approvals chainId
    · cases decision with
      | rejected =>
        refine ChainProgress.reject hasked (fun r hr hpending => ?_) hkept
        rw [hstatus r hr, statusAfter]
        split
        · exact .inl rfl
        · right
          rw [if_pos]
          simp [expires, hpending, onBooking, htarget r hr, htarget a hin]
      | approved =>
        cases threshold with
        | all =>
          refine ChainProgress.approve hasked fun r hr => ?_
          rw [hstatus r hr, statusAfter]
          split
          · exact .inl rfl
          · right
            rw [if_neg]
            simp [expires, hcolumn a hin]
        | any =>
          refine .decided rfl (List.mem_map_of_mem hin) ?_ ?_
          · rw [hstatus a hin, statusAfter, if_pos rfl]
            rfl
          · intro r' hr' hne
            obtain ⟨r, hr, rfl⟩ := List.mem_map.mp hr'
            have hpending := (hasked r hr).resolve_right (by simp)
            rw [hstatus r hr, statusAfter, if_neg (fun hid => hne (by rw [hsame r hr hid])),
              if_pos]
            simp [expires, hpending, hcolumn a hin, sameChain, (mem_chainRows.mp hin).2,
              (mem_chainRows.mp hr).2]
    · have hother : ∀ r ∈ chainRows db.approvals chainId, r.id ≠ a.id := fun r hr hid =>
        hin (hsame r hr hid ▸ hr)
      by_cases hrejects : decision = .rejected ∧ a.targetEntityId = bookingId
      · obtain ⟨rfl, hbooking⟩ := hrejects
        refine ChainProgress.reject hasked (fun r hr hpending => ?_) hkept
        right
        rw [hstatus r hr, statusAfter, if_neg (hother r hr), if_pos]
        simp [expires, hpending, onBooking, htarget r hr, hbooking]
      · refine ChainProgress.map_of_status (.asked hasked) fun r hr => ?_
        rw [hstatus r hr, statusAfter, if_neg (hother r hr), if_neg]
        intro hexpires
        simp only [expires, Bool.and_eq_true] at hexpires
        cases decision with
        | rejected =>
          simp only [onBooking, htarget r hr, beq_iff_eq] at hexpires
          exact hrejects ⟨rfl, hexpires.2.symm⟩
        | approved =>
          cases hthreshold : a.chainThreshold with
          | all => simp [hthreshold] at hexpires
          | any =>
            simp only [hthreshold, sameChain, Bool.and_eq_true, beq_iff_eq] at hexpires
            refine hin (mem_chainRows.mpr ⟨ha, ?_⟩)
            rw [← hexpires.2.2, (mem_chainRows.mp hr).2]

theorem ChainInv.grantOne
    (h : ChainInv producer config bookingId chainId db.approvals) (ruleInTenant : Nat → Bool)
    (call : BookingGrantCall) :
    ChainInv producer config bookingId chainId (grantOne ruleInTenant db call).approvals := by
  obtain ⟨g, hrows, hg⟩ := exists_grantOneRows ruleInTenant db call
  have hchain := chainRows_map chainId hrows fun r hr => (hg r hr).1
  refine ⟨?_, h.newest.map hrows hg, ?_⟩
  · rw [hchain]
    exact h.chain.map fun r hr => (hg r (mem_chainRows.mp hr).1).1
  · rcases h.progress.not_pending with hasked | hnot
    · exact ChainProgress.grantOne ruleInTenant call h.chain.about h.chain.column hasked
    · rw [hchain]
      exact h.progress.map_of_status fun r hr => (hg r (mem_chainRows.mp hr).1).2 (hnot r hr)

theorem ChainInv.run
    (h : ChainInv producer config bookingId chainId db.approvals) (ruleInTenant : Nat → Bool)
    (calls : List BookingGrantCall) :
    ChainInv producer config bookingId chainId
      (Lib.run (Prequest.Booking.grantOne ruleInTenant) db calls).approvals := by
  induction calls generalizing db with
  | nil => exact h
  | cons call calls ih => exact ih (h.grantOne ruleInTenant call)

theorem ChainOf.perm_filterMap (h : ChainOf producer config bookingId rows) :
    (rows.filterMap approverOf).Perm config.requiredApprovers := by
  have hmap := h.approvers.filterMap id
  rw [List.filterMap_map, List.filterMap_map] at hmap
  simpa using hmap

theorem ChainOf.isSome_approverOf
    (h : ChainOf producer config bookingId rows) : ∀ r ∈ rows, (approverOf r).isSome = true := by
  intro r hr
  have hmem := h.approvers.mem_iff.mp (List.mem_map_of_mem hr)
  obtain ⟨approver, _, happrover⟩ := List.mem_map.mp hmem
  rw [← happrover]
  rfl

theorem ChainOf.length_eq (h : ChainOf producer config bookingId rows) :
    rows.length = config.requiredApprovers.length := by
  simpa using h.approvers.length_eq

theorem nodup_chainRows : (chainRows approvals chainId).Nodup :=
  (List.Nodup.of_map _ approvals.nodup).filter _

theorem filter_isLive_of_decided {a : ApprovalRow} (hnodup : rows.Nodup)
    (ha : a ∈ rows) (happroved : a.status = .approved)
    (hothers : ∀ r ∈ rows, r ≠ a → r.status = .expired) : rows.filter isLive = [a] := by
  have hlive : isLive a = true := by simp [isLive, happroved]
  have hall : ∀ r ∈ rows.filter isLive, r = a := by
    intro r hr
    by_contra hne
    obtain ⟨hr, hrlive⟩ := List.mem_filter.mp hr
    rw [isLive_eq_false.mpr (.inr (hothers r hr hne))] at hrlive
    cases hrlive
  have hlength := List.eq_replicate_of_mem hall
  have hone : (rows.filter isLive).length ≤ 1 := by
    have hsub := hnodup.filter isLive
    rw [hlength] at hsub
    exact List.nodup_replicate.mp hsub
  have hpos : 0 < (rows.filter isLive).length :=
    List.length_pos_of_mem (List.mem_filter.mpr ⟨ha, hlive⟩)
  rw [hlength, show (rows.filter isLive).length = 1 by omega]
  rfl

end

/-! ## The law -/

/-- The chain says to the reader what its configuration says: the group of a chain that needs all
its approvers is the one of the booking, and no approver of a chain that needs one has expired. -/
def ReadsBack (producer : Producer) (config : ApprovalConfig) (rows : List ApprovalRow) : Prop :=
  match config.threshold.getD .all with
  | .all => producer ≠ .approvalNode
  | .any => producer = .editBooking ∨ config.requiredApprovers.length = 1 ∨
      ∀ r ∈ rows, r.status ≠ .approved

instance (producer : Producer) (config : ApprovalConfig) (rows : List ApprovalRow) :
    Decidable (ReadsBack producer config rows) := by
  unfold ReadsBack
  split <;> infer_instance

section

variable {producer : Producer} {config : ApprovalConfig} {bookingId chainId : Nat}
  {approvals : Table ApprovalRow}

theorem chainConfigsEqual_iff_readsBack (hsome : config.requiredApprovers ≠ [])
    (h : ChainInv producer config bookingId chainId approvals)
    (hstage : ChainLive (chainRows approvals chainId) ∨
      ChainSatisfied (chainRows approvals chainId)) :
    chainConfigsEqual (loadCurrentApprovalChain approvals bookingId) (some config) = true ↔
      ReadsBack producer config (chainRows approvals chainId) := by
  have hne : chainRows approvals chainId ≠ [] := by
    intro hnil
    have hlength := h.chain.length_eq
    rw [hnil] at hlength
    exact hsome (List.eq_nil_of_length_eq_zero hlength.symm)
  obtain ⟨first, hfirst⟩ := List.exists_mem_of_ne_nil _ hne
  cases h.progress with
  | asked hasked =>
    have hall : (chainRows approvals chainId).filter isLive = chainRows approvals chainId := by
      refine List.filter_eq_self.mpr fun r hr => ?_
      rcases hasked r hr with hr | ⟨_, hr⟩ <;> simp [isLive, hr]
    obtain ⟨approvers, hperm, hload⟩ := loadCurrentApprovalChain_eq h.newest
      (by rw [hall]; exact hne) h.chain.isSome_approverOf
    rw [hall] at hperm hload
    have happrovers : approvers.Perm config.requiredApprovers :=
      hperm.trans h.chain.perm_filterMap
    have hmarked : ((chainRows approvals chainId).any fun r =>
        r.parallelGroup == some (parallelMarker bookingId)) = true ↔
        producer ≠ .approvalNode ∧ config.threshold.getD .all = .all := by
      rw [List.any_eq_true]
      constructor
      · rintro ⟨r, hr, hgroup⟩
        exact (h.chain.marked r hr).mp (beq_iff_eq.mp hgroup)
      · intro hboth
        exact ⟨first, hfirst, beq_iff_eq.mpr ((h.chain.marked first hfirst).mpr hboth)⟩
    rw [hload, chainConfigsEqual_iff, Option.getD_some, and_iff_left happrovers, ReadsBack]
    cases hthreshold : config.threshold.getD .all with
    | all =>
      rw [hthreshold, and_iff_left rfl] at hmarked
      rw [ite_eq_left_iff, Bool.not_eq_true, Bool.eq_false_iff, ne_eq, hmarked]
      simp
    | any =>
      rw [if_neg (by rw [hmarked, hthreshold]; simp)]
      simp only [true_iff]
      by_cases hedit : producer = .editBooking
      · exact .inl hedit
      · right
        right
        intro r hr happroved
        rcases hasked r hr with hpending | ⟨hcolumn, _⟩
        · rw [hpending] at happroved
          cases happroved
        · cases producer with
          | editBooking => exact hedit rfl
          | createApprovalRows => simp [Producer.column, hthreshold] at hcolumn
          | approvalNode => simp [Producer.column, hthreshold] at hcolumn
  | @decided hany a ha happroved hothers =>
    have hlive := filter_isLive_of_decided nodup_chainRows ha happroved hothers
    obtain ⟨approvers, hperm, hload⟩ := loadCurrentApprovalChain_eq h.newest
      (by rw [hlive]; exact List.cons_ne_nil _ _) h.chain.isSome_approverOf
    rw [hlive] at hperm hload
    have hedit : producer ≠ .editBooking := by
      intro hedit
      rw [hedit] at hany
      cases hany
    have hthreshold : config.threshold.getD .all = .any := by
      cases producer with
      | editBooking => exact absurd rfl hedit
      | createApprovalRows => exact hany
      | approvalNode => exact hany
    have hgroup : ([a].any fun r => r.parallelGroup == some (parallelMarker bookingId)) = false := by
      rw [List.any_cons, List.any_nil, Bool.or_false, beq_eq_false_iff_ne, ne_eq,
        h.chain.marked a ha, hthreshold]
      simp
    have hone : approvers.length = 1 := by
      obtain ⟨approver, hsome⟩ := Option.isSome_iff_exists.mp (h.chain.isSome_approverOf a ha)
      rw [hperm.length_eq]
      simp [hsome]
    rw [hload, hgroup, chainConfigsEqual_iff, ReadsBack, hthreshold]
    simp only [Bool.false_eq_true, if_false, Option.getD_some, true_and]
    constructor
    · intro hequal
      exact .inr (.inl (by rw [← hequal.length_eq, hone]))
    · rintro (hcase | hcase | hcase)
      · exact absurd hcase hedit
      · -- the row is the whole chain
        have hsingle : chainRows approvals chainId = [a] := by
          obtain ⟨b, hb⟩ := List.length_eq_one_iff.mp (h.chain.length_eq.trans hcase)
          rw [hb] at ha ⊢
          rw [List.mem_singleton.mp ha]
        rw [← hsingle] at hperm
        exact hperm.trans h.chain.perm_filterMap
      · exact absurd happroved (hcase a ha)
  | ended hover hmissing hnone =>
    rcases hstage with ⟨r, hr, hasked⟩ | hall | ⟨r, hr, hcolumn, happroved⟩
    · rw [hover r hr] at hasked
      cases hasked
    · exact absurd hall hmissing
    · refine absurd happroved (hnone ?_ r hr)
      rw [← h.chain.column r hr, hcolumn]

/-- The configuration of a chain is read back, from its insert through every sequence of answers,
as long as the chain is live or satisfied, exactly when the condition holds of its rows. Its rows
are newer than the other rows of the booking that are live. -/
theorem chainRoundTrips_iff {before : Table ApprovalRow} {db : BookingDb}
    (hsome : config.requiredApprovers ≠ [])
    (hproduces : Produces bookingId config before producer chainId db.approvals)
    (hfresh : ∀ r ∈ before.rows, r.approvalChainId ≠ some chainId)
    (hnewest : ∀ r ∈ db.approvals.rows, aboutBooking bookingId r = true → isLive r = true →
      r.approvalChainId ≠ some chainId →
        ∀ s ∈ chainRows db.approvals chainId, r.createdAt < s.createdAt)
    (ruleInTenant : Nat → Bool) (calls : List BookingGrantCall)
    (hstage : ChainLive (chainRows (run (grantOne ruleInTenant) db calls).approvals chainId) ∨
      ChainSatisfied (chainRows (run (grantOne ruleInTenant) db calls).approvals chainId)) :
    chainConfigsEqual
        (loadCurrentApprovalChain (run (grantOne ruleInTenant) db calls).approvals bookingId)
        (some config) = true ↔
      ReadsBack producer config
        (chainRows (run (grantOne ruleInTenant) db calls).approvals chainId) := by
  obtain ⟨hchain, hpending⟩ := chainOf_produces hproduces hfresh hsome
  have hinv : ChainInv producer config bookingId chainId db.approvals :=
    ⟨hchain, ⟨hchain.about, hnewest⟩, .asked fun r hr => .inl (hpending r hr)⟩
  exact chainConfigsEqual_iff_readsBack hsome (hinv.run ruleInTenant calls) hstage

end

def oneOfTwoManagers : ApprovalConfig where
  requiredApprovers := [⟨.person, 7⟩, ⟨.person, 8⟩]
  threshold := some .any

theorem nodup_askedBooking :
    ([({ id := 1, status := .pendingApproval, locationId := 3, startAt := 0, endAt := 60 } :
      BookingRow)].map key).Nodup := by decide

theorem nodup_askedSlot :
    ([({ id := 2, bookingId := 1, spaceId := 3, startAt := 0, endAt := 60,
         status := .pendingApproval } : SlotRow)].map key).Nodup := by decide

def oneOfTwoAsked : BookingDb where
  bookings := ⟨[{ id := 1, status := .pendingApproval, locationId := 3, startAt := 0, endAt := 60 }],
    nodup_askedBooking⟩
  slots := ⟨[{ id := 2, bookingId := 1, spaceId := 3, startAt := 0, endAt := 60,
               status := .pendingApproval }], nodup_askedSlot⟩
  approvals := ⟨roomApprovalRows ⟨5, fun i => 20 + i, 10⟩ 1 oneOfTwoManagers, by decide⟩

theorem oneOfTwo_produced :
    Produces 1 oneOfTwoManagers Table.empty .createApprovalRows 5 oneOfTwoAsked.approvals :=
  @Produces.createApprovalRows 1 oneOfTwoManagers Table.empty ⟨5, fun i => 20 + i, 10⟩ _
    (by decide) rfl

/-- The first approval shrinks the chain to the manager who has approved. -/
theorem oneOfTwo_shrinks :
    ¬chainConfigsEqual (loadCurrentApprovalChain (run (grantOne fun _ => true) oneOfTwoAsked
      [bookingAnswer 20 "approved"]).approvals 1) (some oneOfTwoManagers) = true := by
  rw [chainRoundTrips_iff (by decide) oneOfTwo_produced (by decide) (by decide) (fun _ => true)
    [bookingAnswer 20 "approved"] (by unfold ChainLive ChainSatisfied; decide)]
  decide

def managerAndTeam : ApprovalConfig where
  requiredApprovers := [⟨.person, 7⟩, ⟨.team, 4⟩]

/-- The approval node that a rule with this configuration is compiled to. -/
def managerAndTeamNode : Node :=
  Workflow.approvalMain [⟨.person, "manager"⟩, ⟨.team, "team"⟩] .all

def managerAndTeamEnv : ApprovalEnv where
  entity := .ok (.booking, 1)
  ticketId := 1
  person := fun id => if id = "manager" then .ok 7 else .error "reference.not_in_tenant"
  team := fun id => if id = "team" then .ok 4 else .error "reference.not_in_tenant"
  chainId := 5
  approvalId := fun i => 20 + i
  now := fun i => 10 + i

/-- The rows that the engine inserts for it are read back as a chain that needs one approval. -/
theorem workflowChain_readAsAny :
    ∃ approvals, Produces 1 managerAndTeam Table.empty .approvalNode 5 approvals ∧
      ChainLive (chainRows approvals 5) ∧
      ¬chainConfigsEqual (loadCurrentApprovalChain approvals 1) (some managerAndTeam) = true := by
  refine ⟨(executeApproval managerAndTeamEnv 9 managerAndTeamNode Table.empty).1, ?_, ?_, ?_⟩
  · have hnames : List.Forall₂ (Workflow.Names managerAndTeamEnv)
        [Workflow.approverItem .person "manager", Workflow.approverItem .team "team"]
        managerAndTeam.requiredApprovers :=
      .cons ⟨.person, "manager", rfl, by decide, rfl⟩
        (.cons ⟨.team, "team", rfl, by decide, rfl⟩ .nil)
    exact @Produces.approvalNode 1 managerAndTeam Table.empty managerAndTeamEnv 9
      managerAndTeamNode _ _ rfl rfl hnames rfl rfl
  · unfold ChainLive
    decide
  · decide

end Prequest.Booking
