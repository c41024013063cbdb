import Prequest.Dispatch.Replay

/-!
# Runs of repeated dispatches

* `dispatchLaw_of_sound`: sound runs meet the law.
* `closed_parent_refuses`: a repetition that fails, though the children exist.
-/

namespace Prequest.Dispatch

open Prequest.Lib Prequest.Command Prequest.Cases

/-! ## Calls of the database -/

variable {now : Int} {cfg : Config} {author : Option Uuid}

theorem checkShape_of_foldlM {parent : Parent} {tasks : List TaskPayload} {s s' : Store}
    (h : tasks.foldlM (dispatchTask cfg now parent author) s = .ok s') :
    ∀ t ∈ tasks, checkShape t = .ok () := by
  induction tasks generalizing s with
  | nil =>
    intro t ht
    cases ht
  | cons u tasks ih =>
    rw [List.foldlM_cons] at h
    obtain ⟨mid, hmid, h⟩ := bind_eq_ok.mp h
    obtain ⟨_, hshape, _⟩ := bind_eq_ok.mp hmid
    intro t ht
    rcases List.mem_cons.mp ht with rfl | ht
    · exact hshape
    · exact ih h t ht

theorem rowsOfAll_singleton (now : Int) (parent : Parent) (author : Option Uuid)
    (t : TaskPayload) : rowsOfAll now parent author [t] = rowsOf now parent author t := by
  rw [rowsOfAll_cons]
  exact Rows.append_nil _

variable {request : Request} {actor : Option Uuid}

theorem send_ok {s s' : Store} (h : send cfg actor now request s = .ok s') :
    s' = s ∨
      (s.operations.get? request.key = none ∧ (∀ t ∈ request.payloads, checkShape t = .ok ()) ∧
        ∃ mid : Store, mid.rows = s.rows.append
            (rowsOfAll now s.parent (authorOf cfg actor) request.payloads) ∧
          mid.operations = s.operations ∧ s' = mid.recorded request.key request.payloads) := by
  cases request with
  | dispatch c t =>
    obtain ⟨hshape, ⟨_, _, rfl⟩ | ⟨hget, _, _, mid, hinsert, rfl⟩⟩ :=
      dispatchChildWorkOrder_ok.mp h
    · exact .inl rfl
    · obtain ⟨_, _, _, rfl⟩ := insertTask_ok.mp hinsert
      refine .inr ⟨hget, ?_, _, ?_, ?_, rfl⟩
      · intro u hu
        obtain rfl := List.mem_singleton.mp hu
        exact hshape
      · show s.rows.append _ = s.rows.append (rowsOfAll now _ _ [t])
        rw [rowsOfAll_singleton]
      · rfl
  | dispatchBatch c tasks =>
    obtain ⟨_, ⟨_, _, rfl⟩ | ⟨hget, _, mid, hfold, rfl⟩⟩ := dispatchChildWorkOrdersBatch_ok.mp h
    · exact .inl rfl
    · obtain ⟨hrows, hoperations, _⟩ := foldlM_dispatchTask hfold
      exact .inr ⟨hget, checkShape_of_foldlM hfold, mid, hrows, hoperations, rfl⟩

theorem send_again {s : Store} {result : List DispatchResult}
    (hget : s.operations.get? request.key =
      some ⟨request.key, request.payloads.map TaskPayload.hashed, .success result⟩)
    (hshape : ∀ t ∈ request.payloads, checkShape t = .ok ()) (hne : request.payloads ≠ []) :
    send cfg actor now request s = .ok s := by
  cases request with
  | dispatch c t =>
    exact dispatchChildWorkOrder_ok.mpr
      ⟨hshape t List.mem_cons_self, .inl ⟨result, hget, rfl⟩⟩
  | dispatchBatch c tasks =>
    exact dispatchChildWorkOrdersBatch_ok.mpr ⟨hne, .inl ⟨result, hget, rfl⟩⟩

/-! ## Plans of one call -/

def WasPlanned (cfg : Config) (call : Call) (request : Request) : Prop :=
  ∃ actor parent clock, plan cfg actor parent clock call = .ok request

section

variable {cfg : Config} {call : Call} {request request' : Request}

theorem WasPlanned.key (h : WasPlanned cfg call request) : request.key = call.key := by
  obtain ⟨_, _, _, h⟩ := h
  exact (plannedFrom_of_plan h).key

theorem WasPlanned.plans (h : WasPlanned cfg call request) :
    List.Forall₂ (Plans cfg) call.named request.payloads := by
  obtain ⟨_, _, _, h⟩ := h
  exact (plannedFrom_of_plan h).plans

theorem WasPlanned.childIds (h : WasPlanned cfg call request) :
    request.payloads.map TaskPayload.childId = call.childIds :=
  childIds_of_plans h.plans

theorem WasPlanned.key_of_mem (h : WasPlanned cfg call request) {t : TaskPayload}
    (ht : t ∈ request.payloads) : t.childId.key = call.key := by
  refine key_of_mem_childIds ?_
  rw [← h.childIds]
  exact List.mem_map.mpr ⟨t, ht, rfl⟩

theorem WasPlanned.ne_nil (h : WasPlanned cfg call request) : request.payloads ≠ [] := by
  have hplans := h.plans
  obtain ⟨_, _, _, h⟩ := h
  cases call with
  | dispatch c dto =>
    intro hnil
    rw [hnil] at hplans
    cases hplans
  | dispatchBatch c tasks =>
    obtain ⟨ts, hplan, _⟩ := bind_eq_ok.mp h
    unfold planDispatchBatch at hplan
    split at hplan
    · cases hplan
    split at hplan
    · cases hplan
    rename_i htasks
    intro hnil
    have hlength := hplans.length_eq
    rw [hnil, Call.named, List.length_map, List.length_zipIdx] at hlength
    exact htasks (List.eq_nil_of_length_eq_zero hlength)

theorem WasPlanned.checkShape (h : WasPlanned cfg call request)
    (h' : WasPlanned cfg call request') (hshape : ∀ t ∈ request.payloads, checkShape t = .ok ()) :
    ∀ t ∈ request'.payloads, checkShape t = .ok () := by
  intro t' ht'
  obtain ⟨task, htask, _, hplan'⟩ := forall₂_exists_left h'.plans ht'
  obtain ⟨t, ht, _, hplan⟩ := forall₂_exists_right h.plans htask
  obtain ⟨_, _, htitle', hmode'⟩ := planTask_spec hplan'
  obtain ⟨_, _, htitle, hmode⟩ := planTask_spec hplan
  rw [← hshape t ht]
  unfold Dispatch.checkShape
  rw [htitle', hmode', htitle, hmode]

theorem WasPlanned.ofChild_append (h : WasPlanned cfg call request) (rows : Rows) (now : Int)
    (parent : Parent) (author : Option Uuid) {id : ChildId} (hid : id.key ≠ call.key) :
    (rows.append (rowsOfAll now parent author request.payloads)).ofChild id =
      rows.ofChild id := by
  have hmem : id ∉ request.payloads.map TaskPayload.childId := by
    rw [h.childIds]
    intro hmem
    exact hid (key_of_mem_childIds hmem)
  rw [Dispatch.ofChild_append, ofChild_rowsOfAll_of_not_mem hmem, Rows.append_nil]

end

/-! ## The invariant -/

structure Recorded (cfg : Config) (rows : Rows)
    (op : CommandOperation OperationKey (List TaskPayload) (List DispatchResult)) (call : Call)
    (request : Request) : Prop where
  planned : WasPlanned cfg call request
  hash : ∃ result, op = ⟨call.key, request.payloads.map TaskPayload.hashed, .success result⟩
  shape : ∀ t ∈ request.payloads, checkShape t = .ok ()
  rows : ∃ parent author now, ∀ t ∈ request.payloads,
    rows.ofChild t.childId = rowsOf now parent author t

section

variable {ι : Type} [DecidableEq ι]

structure Inv (cfg : Config) (cs : List Call) (s : DispatchState ι) : Prop where
  worker : ∀ i a, s.worker i = some a → a.call ∈ cs ∧ WasPlanned cfg a.call a.request
  unused : ∀ key, s.store.operations.get? key = none →
    ∀ id : ChildId, id.key = key → s.store.rows.ofChild id = {}
  used : ∀ key op, s.store.operations.get? key = some op →
    ∃ call ∈ cs, call.key = key ∧ ∃ request, Recorded cfg s.store.rows op call request

variable {cfg : Config} {cs : List Call} {s : DispatchState ι}
  {op : CommandOperation OperationKey (List TaskPayload) (List DispatchResult)} {call : Call}
  {as : List (DispatchInput ι)} {i : ι}

omit [DecidableEq ι] in
theorem Inv.start (parent : Parent) :
    Inv cfg cs (DispatchState.start parent : DispatchState ι) := by
  constructor
  · intro i a ha
    cases ha
  · intro key _ id _
    rfl
  · intro key op hget
    have hnone : (Table.empty : Table (CommandOperation OperationKey (List TaskPayload)
        (List DispatchResult))).get? key = none := rfl
    rw [show (DispatchState.start parent : DispatchState ι).store.operations = .empty from rfl,
      hnone] at hget
    cases hget

theorem Inv.setWorker (h : Inv cfg cs s) (i : ι) (w : Option Attempt)
    (hw : ∀ a, w = some a → a.call ∈ cs ∧ WasPlanned cfg a.call a.request) :
    Inv cfg cs { s with worker := Function.update s.worker i w } := by
  constructor
  · intro j a hj
    change Function.update s.worker i w j = some a at hj
    by_cases hji : j = i
    · subst hji
      rw [Function.update_self] at hj
      exact hw a hj
    · rw [Function.update_of_ne hji] at hj
      exact h.worker j a hj
  · exact h.unused
  · exact h.used

theorem Inv.clearWorker (h : Inv cfg cs s) (i : ι) :
    Inv cfg cs { s with worker := Function.update s.worker i none } := by
  refine h.setWorker i none ?_
  intro a ha
  cases ha

omit [DecidableEq ι] in
theorem Inv.commit (h : Inv cfg cs s) (hcall : call ∈ cs) (hplanned : WasPlanned cfg call request)
    (hget : s.store.operations.get? request.key = none)
    (hshape : ∀ t ∈ request.payloads, checkShape t = .ok ()) {mid : Store} {parent : Parent}
    (hrows : mid.rows = s.store.rows.append (rowsOfAll now parent author request.payloads))
    (hoperations : mid.operations = s.store.operations) :
    Inv cfg cs { s with store := mid.recorded request.key request.payloads } := by
  have hkey := hplanned.key
  have hfree : mid.operations.get? request.key = none := by
    rw [hoperations]
    exact hget
  have hlookup := @get?_recorded mid request.payloads request.key hfree
  rw [hoperations] at hlookup
  constructor
  · exact h.worker
  · intro key hnone id hid
    have hne : key ≠ request.key := by
      rintro rfl
      rw [hlookup, if_pos rfl] at hnone
      cases hnone
    rw [hlookup, if_neg hne] at hnone
    show mid.rows.ofChild id = {}
    rw [hrows, hplanned.ofChild_append _ _ _ _ (by rw [hid, ← hkey]; exact hne)]
    exact h.unused key hnone id hid
  · intro key op hop
    by_cases hsame : key = request.key
    · subst hsame
      rw [hlookup, if_pos rfl] at hop
      cases hop
      refine ⟨call, hcall, hkey.symm, request, hplanned, ⟨_, by rw [hkey]⟩, hshape,
        parent, author, now, ?_⟩
      intro t ht
      have hnodup : (request.payloads.map TaskPayload.childId).Nodup := by
        rw [hplanned.childIds]
        exact childIds_nodup call
      show mid.rows.ofChild t.childId = _
      rw [hrows, ofChild_append, ofChild_rowsOfAll hnodup ht,
        h.unused request.key hget t.childId (by rw [hplanned.key_of_mem ht, hkey])]
      rfl
    · rw [hlookup, if_neg hsame] at hop
      obtain ⟨other, hother, hkeyOther, request', hrecorded⟩ := h.used key op hop
      obtain ⟨parent', author', now', hrows'⟩ := hrecorded.rows
      refine ⟨other, hother, hkeyOther, request', hrecorded.planned, hrecorded.hash,
        hrecorded.shape, parent', author', now', ?_⟩
      intro t ht
      show mid.rows.ofChild t.childId = _
      rw [hrows, hplanned.ofChild_append _ _ _ _ ?_]
      · exact hrows' t ht
      · rw [hrecorded.planned.key_of_mem ht, hkeyOther, ← hkey]
        exact hsame

theorem Inv.step (h : Inv cfg cs s) (a : DispatchInput ι)
    (ha : ∀ i call actor clock, a = .plan i call actor clock → call ∈ cs) :
    Inv cfg cs (step cfg s a) := by
  cases a with
  | setParent parent => exact ⟨h.worker, h.unused, h.used⟩
  | plan i call actor clock =>
    unfold Dispatch.step
    dsimp only
    cases hplan : plan cfg actor s.store.parent clock call with
    | error e => exact h.clearWorker i
    | ok request =>
      refine h.setWorker i _ ?_
      intro b hb
      cases hb
      exact ⟨ha i call actor clock rfl, actor, s.store.parent, clock, hplan⟩
  | send i now =>
    unfold Dispatch.step
    dsimp only
    cases hworker : s.worker i with
    | none => exact h
    | some b =>
      obtain ⟨hcall, hplanned⟩ := h.worker i b hworker
      dsimp only
      cases hsend : send cfg b.actor now b.request s.store with
      | error e => exact h.clearWorker i
      | ok store =>
        rcases send_ok hsend with rfl | ⟨hget, hshape, mid, hrows, hoperations, rfl⟩
        · exact h.clearWorker i
        · exact (h.commit hcall hplanned hget hshape hrows hoperations).clearWorker i
  | drop i => exact h.clearWorker i

omit [DecidableEq ι] in
theorem mem_callsOf {clock : Nat → Int} (h : .plan i call actor clock ∈ as) : call ∈ callsOf as :=
  List.mem_filterMap.mpr ⟨_, h, rfl⟩

variable (cfg) in
theorem inv_run (parent : Parent) {as pre post : List (DispatchInput ι)} (has : as = pre ++ post) :
    Inv cfg (callsOf as) (run (step cfg) (DispatchState.start parent) pre) := by
  subst has
  have hcalls : ∀ a ∈ pre, ∀ i call actor clock, a = .plan i call actor clock →
      call ∈ callsOf (pre ++ post) := by
    rintro a ha i call actor clock rfl
    exact mem_callsOf (List.mem_append_left post ha)
  have hguarded : Guarded (step cfg) (fun _ a => ∀ i call actor clock,
      a = .plan i call actor clock → call ∈ callsOf (pre ++ post))
      (DispatchState.start parent : DispatchState ι) pre := by
    refine guarded_iff.mpr ?_
    rintro pre' a post' rfl
    exact hcalls a (List.mem_append_right pre' List.mem_cons_self)
  exact hguarded.invariant (fun s a hs ha => hs.step a ha) (Inv.start parent)

/-! ## What the caller is told -/

omit [DecidableEq ι] in
theorem refetch_of_recorded {rows : Rows} (h : Recorded cfg rows op call request) {store : Store}
    (hstore : store.rows = rows) :
    (refetch store call.childIds).map WorkOrderRow.id = call.childIds ∧
      ∀ w ∈ refetch store call.childIds, w ∈ rows.workOrders := by
  obtain ⟨parent, author, now, hrows⟩ := h.rows
  have hfind : ∀ id ∈ call.childIds, ∃ w, w.id = id ∧
      (store.rows.workOrders.find? fun w => w.id == id) = some w := by
    intro id hid
    rw [← h.planned.childIds] at hid
    obtain ⟨t, ht, rfl⟩ := List.mem_map.mp hid
    refine ⟨workOrderRow parent t, rfl, ?_⟩
    have hfilter := congrArg Rows.workOrders (hrows t ht)
    rw [hstore, ← List.head?_filter]
    exact congrArg List.head? hfilter
  constructor
  · unfold refetch
    generalize call.childIds = ids at hfind
    induction ids with
    | nil => rfl
    | cons id ids ih =>
      obtain ⟨w, hw, hfound⟩ := hfind id List.mem_cons_self
      rw [List.filterMap_cons, hfound, List.map_cons, hw,
        ih fun id' hid' => hfind id' (List.mem_cons_of_mem id hid')]
  · intro w hw
    obtain ⟨id, _, hfound⟩ := List.mem_filterMap.mp hw
    rw [← hstore]
    exact List.mem_of_find?_eq_some hfound

omit [DecidableEq ι] in
theorem batch_of_inv (h : Inv cfg cs s) : BatchIsSingles cfg s.store := by
  intro actor clock now clientRequestId tasks s' hbatch hfirst clientRequestIds hdistinct hnames
    hfree
  refine batch_singles hbatch hfirst hdistinct hnames hfree ?_
  intro i hi w hw hid
  have hempty := congrArg Rows.workOrders
    (h.unused (.dispatch (clientRequestIds i)) (hfree i hi) (.dispatch (clientRequestIds i)) rfl)
  have hmem : w ∈ s.store.rows.workOrders.filter fun w => w.id == .dispatch (clientRequestIds i) :=
    List.mem_filter.mpr ⟨hw, beq_iff_eq.mpr hid⟩
  have hnil : (s.store.rows.workOrders.filter fun w => w.id == .dispatch (clientRequestIds i)) = [] :=
    hempty
  rw [hnil] at hmem
  cases hmem

omit [DecidableEq ι] in
theorem Inv.recorded (h : Inv cfg cs s)
    (hrepeat : ∀ call ∈ cs, ∀ call' ∈ cs, call.key = call'.key → call = call') (hcall : call ∈ cs)
    (hop : s.store.operations.get? call.key = some op) :
    ∃ request, Recorded cfg s.store.rows op call request := by
  obtain ⟨call', hcall', hkey, request, hrecorded⟩ := h.used call.key op hop
  obtain rfl := hrepeat call' hcall' call hcall hkey
  exact ⟨request, hrecorded⟩

theorem scopes_hashed (ts : List TaskPayload) :
    (ts.map TaskPayload.hashed).map TaskPayload.scope = ts.map TaskPayload.scope := by
  rw [List.map_map]
  rfl

omit [DecidableEq ι] in
theorem plan_of_recorded {clock : Nat → Int} (hop : s.store.operations.get? call.key = some op)
    (hrecorded : Recorded cfg s.store.rows op call request)
    (hsound : Sound s (.plan i call actor clock)) :
    ∃ request', plan cfg actor s.store.parent clock call = .ok request' := by
  obtain ⟨hactor, hparent, hscopes⟩ := hsound op hop
  obtain ⟨result, hhash⟩ := hrecorded.hash
  obtain ⟨actor₀, parent₀, clock₀, hplan⟩ := hrecorded.planned
  refine plan_again hplan hactor hparent ?_ clock
  rw [hscopes, hhash, scopes_hashed]
  exact (plannedFrom_of_plan hplan).scopes

omit [DecidableEq ι] in
theorem send_of_recorded {a : Attempt} (hworker : s.worker i = some a)
    (hplanned : WasPlanned cfg a.call a.request)
    (hop : s.store.operations.get? a.call.key = some op)
    (hrecorded : Recorded cfg s.store.rows op a.call request) (hsound : Sound s (.send i now)) :
    send cfg a.actor now a.request s.store = .ok s.store := by
  obtain ⟨result, hhash⟩ := hrecorded.hash
  have hscopes := hsound a hworker op hop
  rw [hhash, scopes_hashed] at hscopes
  have hsame := hashed_of_scopes hplanned.plans hrecorded.planned.plans hscopes
  rw [hhash, ← hsame, ← hplanned.key] at hop
  exact send_again hop (hrecorded.planned.checkShape hplanned hrecorded.shape) hplanned.ne_nil

omit [DecidableEq ι] in
theorem answer_of_sound (hinv : Inv cfg (callsOf as) s) (hrepeat : Repeats as)
    {a : DispatchInput ι} (ha : a ∈ as) (hsound : Sound s a) (habout : a.about s = some call)
    (hcommitted : s.store.committed call.key = true) {result : Except String (List WorkOrderRow)}
    (hanswer : answer cfg s a = some result) :
    ∃ rows, result = .ok rows ∧ rows.map WorkOrderRow.id = call.childIds ∧
      ∀ w ∈ rows, w ∈ s.store.rows.workOrders := by
  obtain ⟨op, hop⟩ := Option.isSome_iff_exists.mp hcommitted
  cases a with
  | setParent parent => cases habout
  | drop i => cases habout
  | plan i call' actor clock =>
    obtain rfl : call' = call := Option.some.inj habout
    obtain ⟨request, hrecorded⟩ := hinv.recorded hrepeat (mem_callsOf ha) hop
    obtain ⟨request', hplan⟩ := plan_of_recorded hop hrecorded hsound
    unfold answer at hanswer
    dsimp only at hanswer
    rw [hplan] at hanswer
    cases hanswer
  | send i now =>
    change (s.worker i).map Attempt.call = some call at habout
    cases hworker : s.worker i with
    | none =>
      rw [hworker] at habout
      cases habout
    | some b =>
      rw [hworker] at habout
      obtain rfl : b.call = call := Option.some.inj habout
      obtain ⟨hcall, hplanned⟩ := hinv.worker i b hworker
      obtain ⟨request, hrecorded⟩ := hinv.recorded hrepeat hcall hop
      have hsend : send cfg b.actor now b.request s.store = .ok s.store :=
        send_of_recorded hworker hplanned hop hrecorded hsound
      unfold answer at hanswer
      dsimp only at hanswer
      rw [hworker, Option.map_some, hsend] at hanswer
      obtain ⟨hids, hrows⟩ := refetch_of_recorded hrecorded rfl
      exact ⟨_, (Option.some.inj hanswer).symm, hids, hrows⟩

omit [DecidableEq ι] in
theorem dispatched_of_inv (hinv : Inv cfg cs s)
    (hrepeat : ∀ call ∈ cs, ∀ call' ∈ cs, call.key = call'.key → call = call') (hcall : call ∈ cs) :
    (∀ id ∈ call.childIds, s.store.rows.ofChild id = {}) ∨
      Dispatched cfg s.store.rows call := by
  rcases Option.eq_none_or_eq_some (s.store.operations.get? call.key) with hnone | ⟨op, hop⟩
  · exact .inl fun id hid => hinv.unused call.key hnone id (key_of_mem_childIds hid)
  · obtain ⟨request, hrecorded⟩ := hinv.recorded hrepeat hcall hop
    obtain ⟨parent, author, now, hrows⟩ := hrecorded.rows
    exact .inr ⟨request.payloads, parent, author, now, hrecorded.planned.plans, hrows⟩

/-- A run whose repetitions find the parent as it was for the first call meets the law. -/
theorem dispatchLaw_of_sound (cfg : Config) (parent : Parent) (as : List (DispatchInput ι))
    (hrepeat : Repeats as) (hsound : Guarded (step cfg) Sound (DispatchState.start parent) as) :
    DispatchLaw cfg (DispatchState.start parent) as where
  exactlyOnce := by
    intro pre post has call hcall
    exact dispatched_of_inv (inv_run cfg parent has) hrepeat hcall
  sameChildren := by
    intro pre a post has call habout hcommitted result hanswer
    have ha : a ∈ as := by
      rw [has]
      exact List.mem_append_right pre List.mem_cons_self
    exact answer_of_sound (inv_run cfg parent has) hrepeat ha
      (guarded_iff.mp hsound pre a post has) habout hcommitted hanswer
  batch := by
    intro pre post has
    exact batch_of_inv (inv_run cfg parent has)

/-! ## Runs -/

def oneTeam : Config where
  requestTypes := ["plumbing"]
  teams := ["ops"]
  evaluate _ := .ok { target := none, chosenBy := "unassigned", strategy := "fixed" }

def leakCase : Parent where
  status := "open"
  statusCategory := "assigned"
  waitingReason := none
  resolvedAt := none
  closedAt := none
  priority := some "high"
  ticketTypeId := some "plumbing"
  locationId := none
  assetId := none
  requesterPersonId := some "person"
  writers := []

def fixPipe : Call := .dispatch "r1" { title := "Fix the pipe", assigned := { teamId := some "ops" } }

/-- The answer to the first attempt is lost, and the call is repeated a minute later. -/
theorem dispatchLaw_of_sound_leak :
    DispatchLaw oneTeam (DispatchState.start leakCase : DispatchState Unit)
      [.plan () fixPipe none (fun _ => 0), .send () 5, .plan () fixPipe none (fun _ => 60000),
        .send () 60005] := by
  refine dispatchLaw_of_sound oneTeam leakCase _ ?_ ⟨?_, ?_, ?_, ?_, trivial⟩
  · intro call hcall call' hcall' _
    have hcalls : ∀ c ∈ [fixPipe, fixPipe], c = fixPipe := by
      simp
    rw [hcalls call hcall, hcalls call' hcall']
  · intro op hop
    cases hop
  · intro a ha op hop
    cases ha
    cases hop
  · intro op hop
    cases hop
    exact ⟨rfl, rfl, by decide +kernel⟩
  · intro a ha op hop
    cases ha
    cases hop
    decide +kernel

/-- The case is closed after the commit, and the repetition is refused though the child exists. -/
theorem closed_parent_refuses :
    ¬DispatchLaw oneTeam (DispatchState.start leakCase : DispatchState Unit)
      [.plan () fixPipe none (fun _ => 0), .send () 5,
        .setParent { leakCase with statusCategory := "closed" },
        .plan () fixPipe none (fun _ => 60000)] := by
  intro h
  obtain ⟨rows, hrows, _⟩ := h.sameChildren [.plan () fixPipe none (fun _ => 0), .send () 5,
    .setParent { leakCase with statusCategory := "closed" }]
    (.plan () fixPipe none (fun _ => 60000)) [] rfl fixPipe rfl (by decide +kernel)
    (.error "dispatch.parent_terminal") (by rfl)
  cases hrows

end

end Prequest.Dispatch
