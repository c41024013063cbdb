import Prequest.Dispatch.Commands

/-!
# A batch and its tasks one by one

* `batch_singles`: a committed batch and its single calls write the same rows, up to ids.
-/

namespace Prequest.Dispatch

open Prequest.Lib Prequest.Command Prequest.Cases

/-! ## The service -/

section

variable (cfg : Config) (actor : Option Uuid)

/-- `DispatchService.dispatch`. The clock is read for the plan, and again by the database. -/
def dispatch (planned now : Int) (clientRequestId : String)
    (dto : DispatchDto) (s : Store) : Except String Store := do
  let task ← planDispatch cfg actor s.parent planned clientRequestId dto
  dispatchChildWorkOrder cfg actor now clientRequestId task s

/-- `DispatchService.dispatchBatch`. -/
def dispatchBatch (clock : Nat → Int) (now : Int)
    (clientRequestId : String) (tasks : List DispatchDto) (s : Store) : Except String Store := do
  let payloads ← planDispatchBatch cfg actor s.parent clock clientRequestId tasks
  dispatchChildWorkOrdersBatch cfg actor now clientRequestId payloads s

/-- One call for one task of a list. -/
def dispatchNext (clock : Nat → Int) (now : Int)
    (clientRequestIds : Nat → String) (s : Store) (task : DispatchDto × Nat) :
    Except String Store :=
  dispatch cfg actor (clock task.2) now (clientRequestIds task.2) task.1 s

/-- A call for every task, at the same readings of the clock as in a batch. -/
def oneAfterTheOther (clock : Nat → Int) (now : Int)
    (clientRequestIds : Nat → String) (tasks : List DispatchDto) (s : Store) :
    Except String Store :=
  tasks.zipIdx.foldlM (dispatchNext cfg actor clock now clientRequestIds) s

end

/-! ## Rows under other ids -/

def Rows.rename (f : ChildId → ChildId) (r : Rows) : Rows where
  workOrders := r.workOrders.map fun w => { w with id := f w.id }
  decisions := r.decisions.map fun d => { d with workOrderId := f d.workOrderId }
  timers := r.timers.map fun t => { t with workOrderId := f t.workOrderId }
  activities := r.activities.map fun a => { a with childId := f a.childId }

def singleId (clientRequestId : String) (clientRequestIds : Nat → String) : ChildId → ChildId
  | .dispatchBatch c i =>
      if c = clientRequestId then .dispatch (clientRequestIds i) else .dispatchBatch c i
  | id => id

theorem Rows.append_assoc (r s t : Rows) : (r.append s).append t = r.append (s.append t) := by
  ext1 <;> exact List.append_assoc ..

theorem Rows.append_nil (r : Rows) : r.append {} = r := by
  ext1 <;> exact List.append_nil _

theorem Rows.rename_append (f : ChildId → ChildId) (r s : Rows) :
    (r.append s).rename f = (r.rename f).append (s.rename f) := by
  ext1 <;> exact List.map_append

theorem rename_rowsOf (f : ChildId → ChildId) (now : Int) (parent : Parent)
    (author : Option Uuid) (t : TaskPayload) :
    (rowsOf now parent author t).rename f =
      rowsOf now parent author { t with childId := f t.childId } := by
  ext1
  · rfl
  · rfl
  · show (timerRows now t).map _ = timerRows now _
    unfold timerRows
    cases t.sla with
    | none => rfl
    | some sla => exact List.map_map
  · rfl

theorem rollupParent_rename (f : ChildId → ChildId) (now : Int) (base added : Rows)
    (parent : Parent) :
    rollupParent now (base.append (added.rename f)) parent =
      rollupParent now (base.append added) parent := by
  have hmap : (base.append (added.rename f)).workOrders.map WorkOrderRow.statusCategory =
      (base.append added).workOrders.map WorkOrderRow.statusCategory := by
    simp [Rows.append, Rows.rename]
  unfold rollupParent
  rw [hmap]

/-! ## One task, twice -/

theorem gateParent_ok {p : Parent} : gateParent p = .ok () ↔ checkDispatchable p = .ok () := by
  rw [checkDispatchable_ok]
  unfold gateParent
  split
  · rename_i h
    simp [h]
  · rename_i hpending
    split
    · rename_i hterminal
      simp [hterminal]
    · rename_i hterminal
      exact iff_of_true rfl ⟨hpending, Bool.eq_false_iff.mpr hterminal⟩

variable {t : TaskPayload}

theorem planTask_childId {cfg : Config} {now : Int} {childId : ChildId} {dto : DispatchDto}
    {scope : Scope} (h : planTask cfg now childId dto scope = .ok t) (childId' : ChildId) :
    planTask cfg now childId' dto scope = .ok { t with childId := childId' } := by
  obtain ⟨u, hreferences, h⟩ := bind_eq_ok.mp h
  obtain ⟨routing, hrouting, h⟩ := bind_eq_ok.mp h
  obtain ⟨slaId, hslaId, h⟩ := bind_eq_ok.mp h
  obtain ⟨sla, hsla, h⟩ := bind_eq_ok.mp h
  cases h
  exact bind_eq_ok.mpr ⟨u, hreferences, bind_eq_ok.mpr ⟨routing, hrouting,
    bind_eq_ok.mpr ⟨slaId, hslaId, bind_eq_ok.mpr ⟨sla, hsla, rfl⟩⟩⟩⟩

section

variable {cfg : Config} {actor : Option Uuid} {clock : Nat → Int} {now : Int}
  {clientRequestId : String} {clientRequestIds : Nat → String} {parent : Parent}
  {task : DispatchDto × Nat}

theorem planDispatch_of_batch {p : Parent}
    (hplan : planBatchTask cfg parent clock clientRequestId task = .ok t)
    (hactor : gateActor actor parent = .ok ()) (hp : checkDispatchable p = .ok ())
    (hscope : SameScope parent p) {c : String} (hc : c ≠ "") :
    planDispatch cfg actor p (clock task.2) c task.1 =
      .ok { t with childId := .dispatch c } := by
  obtain ⟨_, htitle, hplan⟩ := bind_eq_ok.mp hplan
  have hactor' : gateActor actor p = .ok () := by
    unfold gateActor at hactor ⊢
    rwa [hscope.writers]
  unfold planDispatch
  refine bind_eq_ok.mpr ⟨(), hactor', bind_eq_ok.mpr ⟨(), htitle, bind_eq_ok.mpr ⟨(),
    gateParent_ok.mpr hp, bind_eq_ok.mpr ⟨_, ?_, if_neg hc⟩⟩⟩⟩
  rw [hscope.scopeOf]
  exact planTask_childId hplan _

/-- The two sides after some of the tasks: `b` in the batch, and `c` in the single calls. -/
structure Paired (parent : Parent) (f : ChildId → ChildId) (base : Rows) (b c : Store)
    (added : Rows) : Prop where
  parents : c.parent = b.parent
  scope : SameScope parent b.parent
  dispatchable : checkDispatchable b.parent = .ok ()
  batch : b.rows = base.append added
  singles : c.rows = base.append (added.rename f)

theorem Paired.next {base added : Rows} {b b' c : Store}
    (h : Paired parent (singleId clientRequestId clientRequestIds) base b c added)
    (hactor : gateActor actor parent = .ok ())
    (hplan : planBatchTask cfg parent clock clientRequestId task = .ok t)
    (hturn : dispatchTask cfg now parent (authorOf cfg actor) b t = .ok b')
    (hname : clientRequestIds task.2 ≠ "")
    (hfree : c.operations.get? (.dispatch (clientRequestIds task.2)) = none)
    (hid : ∀ w ∈ c.rows.workOrders, w.id ≠ .dispatch (clientRequestIds task.2)) :
    ∃ c', dispatchNext cfg actor clock now clientRequestIds c task = .ok c' ∧
      Paired parent (singleId clientRequestId clientRequestIds) base b' c'
        (added.append (rowsOf now parent (authorOf cfg actor) t)) ∧ (∀ k, c'.operations.get? k =
        if k = .dispatch (clientRequestIds task.2) then
          some ⟨.dispatch (clientRequestIds task.2),
            [{ t with childId := .dispatch (clientRequestIds task.2) }.hashed],
            .success [resultOf { t with childId := .dispatch (clientRequestIds task.2) }]⟩
        else c.operations.get? k) ∧
      c'.rows.workOrders = c.rows.workOrders ++
        [workOrderRow parent { t with childId := .dispatch (clientRequestIds task.2) }] := by
  obtain ⟨_, hshape, hturn⟩ := bind_eq_ok.mp hturn
  obtain ⟨_, htenant, hturn⟩ := bind_eq_ok.mp hturn
  obtain ⟨hopen, _, hsla, rfl⟩ := insertTask_ok.mp hturn
  have hchildId : t.childId = .dispatchBatch clientRequestId task.2 := by
    obtain ⟨_, _, hplan⟩ := bind_eq_ok.mp hplan
    exact (planTask_spec hplan).1
  have hdispatchable : checkDispatchable c.parent = .ok () := by
    rw [h.parents]
    exact h.dispatchable
  have hscope : SameScope parent c.parent := by
    rw [h.parents]
    exact h.scope
  have hplanned := planDispatch_of_batch hplan hactor hdispatchable hscope hname
  generalize ht' : { t with childId := .dispatch (clientRequestIds task.2) } = t' at hplanned ⊢
  have hrows : rowsOf now c.parent (authorOf cfg actor) t' =
      (rowsOf now parent (authorOf cfg actor) t).rename
        (singleId clientRequestId clientRequestIds) := by
    rw [hscope.rowsOf, rename_rowsOf, hchildId, ← ht', singleId, if_pos rfl]
  have hcommand : dispatchChildWorkOrder cfg actor now (clientRequestIds task.2) t' c =
      .ok (Store.recorded
        { c with
          parent := rollupParent now
            (c.rows.append (rowsOf now c.parent (authorOf cfg actor) t')) c.parent
          rows := c.rows.append (rowsOf now c.parent (authorOf cfg actor) t') }
        (.dispatch (clientRequestIds task.2)) [t']) := by
    refine dispatchChildWorkOrder_ok.mpr ⟨?_, .inr ⟨hfree, hdispatchable, ?_, _,
      insertTask_ok.mpr ⟨?_, ?_, ?_, rfl⟩, rfl⟩⟩
    · rw [← ht']
      exact hshape
    · rw [← ht']
      exact htenant
    · rw [h.parents]
      exact hopen
    · rw [← ht']
      exact hid
    · rw [← ht']
      exact hsla
  refine ⟨_, bind_eq_ok.mpr ⟨t', hplanned, hcommand⟩, ?_, get?_recorded hfree, ?_⟩
  · rw [hrows, h.singles, Rows.append_assoc, ← Rows.rename_append]
    constructor
    · show rollupParent now _ c.parent = rollupParent now _ b.parent
      rw [rollupParent_rename, h.parents, h.batch, Rows.append_assoc]
    · exact h.scope.rollup now _
    · exact dispatchable_insert h.dispatchable
    · show b.rows.append _ = _
      rw [h.batch, Rows.append_assoc]
    · rfl
  · show (c.rows.append _).workOrders = _
    rw [hscope.rowsOf]
    rfl

theorem Paired.rest {tasks : List (DispatchDto × Nat)} {ts : List TaskPayload}
    (hplans : List.Forall₂ (fun task t =>
      planBatchTask cfg parent clock clientRequestId task = .ok t) tasks ts)
    (hactor : gateActor actor parent = .ok ())
    (hdistinct : (tasks.map fun task => clientRequestIds task.2).Nodup)
    (hnames : ∀ task ∈ tasks, clientRequestIds task.2 ≠ "")
    {base added : Rows} {b b' c : Store}
    (h : Paired parent (singleId clientRequestId clientRequestIds) base b c added)
    (hfold : ts.foldlM (dispatchTask cfg now parent (authorOf cfg actor)) b = .ok b')
    (hfree : ∀ task ∈ tasks, c.operations.get? (.dispatch (clientRequestIds task.2)) = none)
    (hids : ∀ task ∈ tasks, ∀ w ∈ c.rows.workOrders,
      w.id ≠ .dispatch (clientRequestIds task.2)) :
    ∃ c' added', tasks.foldlM (dispatchNext cfg actor clock now clientRequestIds) c = .ok c' ∧
      Paired parent (singleId clientRequestId clientRequestIds) base b' c' added' := by
  induction hplans generalizing added b c with
  | nil =>
    cases hfold
    exact ⟨c, added, rfl, h⟩
  | cons hplan _ ih =>
    rename_i task t tasks ts hplans
    rw [List.foldlM_cons] at hfold
    obtain ⟨mid, hturn, hfold⟩ := bind_eq_ok.mp hfold
    obtain ⟨c₁, hcall, hpaired, hoperations, hworkOrders⟩ := h.next hactor hplan hturn
      (hnames task List.mem_cons_self) (hfree task List.mem_cons_self)
      (hids task List.mem_cons_self)
    rw [List.map_cons, List.nodup_cons] at hdistinct
    have hother : ∀ task' ∈ tasks, clientRequestIds task'.2 ≠ clientRequestIds task.2 := by
      intro task' htask' hsame
      exact hdistinct.1 (List.mem_map.mpr ⟨task', htask', hsame⟩)
    have hfree' : ∀ task' ∈ tasks,
        c₁.operations.get? (.dispatch (clientRequestIds task'.2)) = none := by
      intro task' htask'
      have hne : OperationKey.dispatch (clientRequestIds task'.2) ≠
          .dispatch (clientRequestIds task.2) := by
        intro hsame
        exact hother task' htask' (OperationKey.dispatch.inj hsame)
      rw [hoperations, if_neg hne]
      exact hfree task' (List.mem_cons_of_mem _ htask')
    have hids' : ∀ task' ∈ tasks, ∀ w ∈ c₁.rows.workOrders,
        w.id ≠ .dispatch (clientRequestIds task'.2) := by
      intro task' htask' w hw
      rw [hworkOrders] at hw
      rcases List.mem_append.mp hw with hw | hw
      · exact hids task' (List.mem_cons_of_mem _ htask') w hw
      · obtain rfl := List.mem_singleton.mp hw
        intro hsame
        exact hother task' htask' (ChildId.dispatch.inj hsame).symm
    obtain ⟨c', added', hrest, hpaired'⟩ := ih hdistinct.2
      (fun task' htask' => hnames task' (List.mem_cons_of_mem _ htask')) hpaired hfold hfree' hids'
    refine ⟨c', added', ?_, hpaired'⟩
    rw [List.foldlM_cons]
    exact bind_eq_ok.mpr ⟨c₁, hcall, hrest⟩

end

theorem batch_singles {cfg : Config} {actor : Option Uuid} {clock : Nat → Int} {now : Int}
    {clientRequestId : String} {tasks : List DispatchDto} {s s' : Store}
    (hbatch : dispatchBatch cfg actor clock now clientRequestId tasks s = .ok s')
    (hfirst : s.operations.get? (.dispatchBatch clientRequestId) = none)
    {clientRequestIds : Nat → String}
    (hdistinct : ((List.range tasks.length).map clientRequestIds).Nodup)
    (hnames : ∀ i < tasks.length, clientRequestIds i ≠ "")
    (hfree : ∀ i < tasks.length, s.operations.get? (.dispatch (clientRequestIds i)) = none)
    (hids : ∀ i < tasks.length, ∀ w ∈ s.rows.workOrders, w.id ≠ .dispatch (clientRequestIds i)) :
    ∃ s'' added, oneAfterTheOther cfg actor clock now clientRequestIds tasks s = .ok s'' ∧
      s'.rows = s.rows.append added ∧
      s''.rows = s.rows.append (added.rename (singleId clientRequestId clientRequestIds)) ∧
      s''.parent = s'.parent := by
  obtain ⟨payloads, hplan, hcommand⟩ := bind_eq_ok.mp hbatch
  unfold planDispatchBatch at hplan
  split at hplan
  · cases hplan
  split at hplan
  · cases hplan
  obtain ⟨_, hactor, hplan⟩ := bind_eq_ok.mp hplan
  obtain ⟨_, _, hplan⟩ := bind_eq_ok.mp hplan
  have hplans := mapM_eq_ok.mp hplan
  obtain ⟨_, ⟨_, hget, _⟩ | ⟨_, hdispatchable, mid, hfold, rfl⟩⟩ :=
    dispatchChildWorkOrdersBatch_ok.mp hcommand
  · rw [hfirst] at hget
    cases hget
  have hindex : ∀ task ∈ tasks.zipIdx, task.2 < tasks.length := by
    intro task htask
    have := List.snd_lt_of_mem_zipIdx htask
    simpa using this
  have hstart : Paired s.parent (singleId clientRequestId clientRequestIds) s.rows s s {} :=
    ⟨rfl, SameScope.refl _, hdispatchable, (Rows.append_nil _).symm, (Rows.append_nil _).symm⟩
  have hnodup : (tasks.zipIdx.map fun task => clientRequestIds task.2).Nodup := by
    have hmap : (tasks.zipIdx.map fun task => clientRequestIds task.2) =
        (List.range tasks.length).map clientRequestIds := by
      show tasks.zipIdx.map (clientRequestIds ∘ Prod.snd) = _
      rw [← List.map_map]
      simp [List.range_eq_range']
    rw [hmap]
    exact hdistinct
  obtain ⟨c', added, hcalls, hpaired⟩ := Paired.rest hplans hactor hnodup
    (fun task htask => hnames _ (hindex task htask)) hstart hfold
    (fun task htask => hfree _ (hindex task htask))
    (fun task htask => hids _ (hindex task htask))
  exact ⟨c', added, hcalls, hpaired.batch, hpaired.singles, hpaired.parents⟩

end Prequest.Dispatch
