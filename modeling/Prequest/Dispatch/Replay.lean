import Mathlib.Logic.Function.Basic
import Prequest.Dispatch.Batch
import Prequest.Lib.Run

/-!
# Repeated dispatches

A call is repeated with its client request id when its answer was lost. Between two attempts, and
between the plan of an attempt and its call of the database, others change the parent case.

* `plannedFrom_of_plan`, `plan_again`: what a plan has checked, and when it can be made again.
-/

namespace Prequest.Dispatch

open Prequest.Lib Prequest.Command Prequest.Cases

/-! ## Calls and their attempts -/

inductive Call where
  | dispatch (clientRequestId : String) (dto : DispatchDto)
  | dispatchBatch (clientRequestId : String) (tasks : List DispatchDto)
  deriving DecidableEq, Repr

def Call.key : Call → OperationKey
  | .dispatch c _ => .dispatch c
  | .dispatchBatch c _ => .dispatchBatch c

def Call.named : Call → List (DispatchDto × ChildId)
  | .dispatch c dto => [(dto, .dispatch c)]
  | .dispatchBatch c tasks => tasks.zipIdx.map fun task => (task.1, .dispatchBatch c task.2)

def Call.childIds (call : Call) : List ChildId := call.named.map Prod.snd

/-- The arguments of the call of the database. -/
inductive Request where
  | dispatch (clientRequestId : String) (task : TaskPayload)
  | dispatchBatch (clientRequestId : String) (tasks : List TaskPayload)
  deriving DecidableEq, Repr

def Request.key : Request → OperationKey
  | .dispatch c _ => .dispatch c
  | .dispatchBatch c _ => .dispatchBatch c

def Request.payloads : Request → List TaskPayload
  | .dispatch _ task => [task]
  | .dispatchBatch _ tasks => tasks

def plan (cfg : Config) (actor : Option Uuid) (parent : Parent) (clock : Nat → Int) (call : Call) :
    Except String Request :=
  match call with
  | .dispatch c dto => do
      let task ← planDispatch cfg actor parent (clock 0) c dto
      return .dispatch c task
  | .dispatchBatch c tasks => do
      let payloads ← planDispatchBatch cfg actor parent clock c tasks
      return .dispatchBatch c payloads

/-- The call of the database. -/
def send (cfg : Config) (actor : Option Uuid) (now : Int) (request : Request) (s : Store) :
    Except String Store :=
  match request with
  | .dispatch c task => dispatchChildWorkOrder cfg actor now c task s
  | .dispatchBatch c tasks => dispatchChildWorkOrdersBatch cfg actor now c tasks s

/-- The rows that the service reads back, in the order of the tasks. -/
def refetch (s : Store) (childIds : List ChildId) : List WorkOrderRow :=
  childIds.filterMap fun id => s.rows.workOrders.find? fun w => w.id == id

structure Attempt where
  call : Call
  actor : Option Uuid
  request : Request
  deriving DecidableEq, Repr

structure DispatchState (ι : Type) where
  store : Store
  worker : ι → Option Attempt

def DispatchState.start {ι : Type} (parent : Parent) : DispatchState ι where
  store := { parent := parent, rows := {}, operations := .empty }
  worker := fun _ => none

inductive DispatchInput (ι : Type) where
  /-- Others write the parent. -/
  | setParent (parent : Parent)
  | plan (i : ι) (call : Call) (actor : Option Uuid) (clock : Nat → Int)
  | send (i : ι) (now : Int)
  /-- The attempt ends without an answer. -/
  | drop (i : ι)

section

variable {ι : Type} [DecidableEq ι]

def step (cfg : Config) (s : DispatchState ι) : DispatchInput ι → DispatchState ι
  | .setParent parent => { s with store := { s.store with parent := parent } }
  | .plan i call actor clock =>
      match plan cfg actor s.store.parent clock call with
      | .error _ => { s with worker := Function.update s.worker i none }
      | .ok request => { s with worker := Function.update s.worker i (some ⟨call, actor, request⟩) }
  | .send i now =>
      match s.worker i with
      | none => s
      | some a =>
          match send cfg a.actor now a.request s.store with
          | .error _ => { s with worker := Function.update s.worker i none }
          | .ok store => { store := store, worker := Function.update s.worker i none }
  | .drop i => { s with worker := Function.update s.worker i none }

omit [DecidableEq ι] in
/-- What the caller is told in a step. -/
def answer (cfg : Config) (s : DispatchState ι) :
    DispatchInput ι → Option (Except String (List WorkOrderRow))
  | .plan _ call actor clock =>
      match plan cfg actor s.store.parent clock call with
      | .error e => some (.error e)
      | .ok _ => none
  | .send i now =>
      (s.worker i).map fun a => do
        let store ← send cfg a.actor now a.request s.store
        return refetch store a.call.childIds
  | _ => none

def DispatchInput.about (s : DispatchState ι) : DispatchInput ι → Option Call
  | .plan _ call _ _ => some call
  | .send i _ => (s.worker i).map Attempt.call
  | _ => none

def callsOf (as : List (DispatchInput ι)) : List Call :=
  as.filterMap fun
    | .plan _ call _ _ => some call
    | _ => none

/-! ## The law -/

def Rows.ofChild (r : Rows) (id : ChildId) : Rows where
  workOrders := r.workOrders.filter fun w => w.id == id
  decisions := r.decisions.filter fun d => d.workOrderId == id
  timers := r.timers.filter fun t => t.workOrderId == id
  activities := r.activities.filter fun a => a.childId == id

def Plans (cfg : Config) (task : DispatchDto × ChildId) (t : TaskPayload) : Prop :=
  ∃ now, planTask cfg now task.2 task.1 t.scope = .ok t

def Dispatched (cfg : Config) (rows : Rows) (call : Call) : Prop :=
  ∃ tasks parent author now, List.Forall₂ (Plans cfg) call.named tasks ∧
    ∀ t ∈ tasks, rows.ofChild t.childId = rowsOf now parent author t

/-- A batch that commits leaves what single calls leave, up to ids. -/
def BatchIsSingles (cfg : Config) (s : Store) : Prop :=
  ∀ actor clock now clientRequestId tasks s',
    dispatchBatch cfg actor clock now clientRequestId tasks s = .ok s' →
    s.operations.get? (.dispatchBatch clientRequestId) = none →
    ∀ clientRequestIds : Nat → String,
      ((List.range tasks.length).map clientRequestIds).Nodup →
      (∀ i < tasks.length, clientRequestIds i ≠ "") →
      (∀ i < tasks.length, s.operations.get? (.dispatch (clientRequestIds i)) = none) →
      ∃ s'' added, oneAfterTheOther cfg actor clock now clientRequestIds tasks s = .ok s'' ∧
        s'.rows = s.rows.append added ∧
        s''.rows = s.rows.append (added.rename (singleId clientRequestId clientRequestIds)) ∧
        s''.parent = s'.parent

structure DispatchLaw (cfg : Config) (s : DispatchState ι) (as : List (DispatchInput ι)) :
    Prop where
  exactlyOnce : ∀ pre post, as = pre ++ post → ∀ call ∈ callsOf as,
    (∀ id ∈ call.childIds, (run (step cfg) s pre).store.rows.ofChild id = {}) ∨
      Dispatched cfg (run (step cfg) s pre).store.rows call
  sameChildren : ∀ pre a post, as = pre ++ a :: post → ∀ call,
    a.about (run (step cfg) s pre) = some call →
      (run (step cfg) s pre).store.committed call.key = true →
        ∀ result, answer cfg (run (step cfg) s pre) a = some result →
          ∃ rows, result = .ok rows ∧ rows.map WorkOrderRow.id = call.childIds ∧
            ∀ w ∈ rows, w ∈ (run (step cfg) s pre).store.rows.workOrders
  batch : ∀ pre post, as = pre ++ post → BatchIsSingles cfg (run (step cfg) s pre).store

/-- A client request id stands for one call. -/
def Repeats (as : List (DispatchInput ι)) : Prop :=
  ∀ call ∈ callsOf as, ∀ call' ∈ callsOf as, call.key = call'.key → call = call'

/-- An attempt of a committed call finds the parent open and writable, and with the values that its
tasks took when the call was committed. -/
def Sound (s : DispatchState ι) : DispatchInput ι → Prop
  | .plan _ call actor _ =>
      ∀ op, s.store.operations.get? call.key = some op →
        gateActor actor s.store.parent = .ok () ∧ gateParent s.store.parent = .ok () ∧
          call.named.map (fun task => scopeOf s.store.parent task.1) =
            op.payloadHash.map TaskPayload.scope
  | .send i _ =>
      ∀ a, s.worker i = some a → ∀ op, s.store.operations.get? a.call.key = some op →
        a.request.payloads.map TaskPayload.scope = op.payloadHash.map TaskPayload.scope
  | _ => True

end

/-! ## Rows of a child -/

theorem ofChild_append (r s : Rows) (id : ChildId) :
    (r.append s).ofChild id = (r.ofChild id).append (s.ofChild id) := by
  ext1 <;> exact List.filter_append ..

theorem ofChild_rowsOf (now : Int) (parent : Parent) (author : Option Uuid) (t : TaskPayload)
    (id : ChildId) :
    (rowsOf now parent author t).ofChild id =
      if t.childId = id then rowsOf now parent author t else {} := by
  have htimers : ∀ timer ∈ timerRows now t, timer.workOrderId = t.childId := by
    intro timer htimer
    unfold timerRows at htimer
    cases hsla : t.sla with
    | none =>
      rw [hsla] at htimer
      cases htimer
    | some sla =>
      rw [hsla] at htimer
      obtain ⟨_, _, rfl⟩ := List.mem_map.mp htimer
      rfl
  by_cases hid : t.childId = id
  · rw [if_pos hid]
    ext1
    · simp [Rows.ofChild, rowsOf, workOrderRow, hid]
    · simp [Rows.ofChild, rowsOf, decisionRow, hid]
    · refine List.filter_eq_self.mpr fun timer htimer => ?_
      rw [htimers timer htimer, hid, beq_self_eq_true]
    · simp [Rows.ofChild, rowsOf, activityRow, hid]
  · rw [if_neg hid]
    ext1
    · simp [Rows.ofChild, rowsOf, workOrderRow, hid]
    · simp [Rows.ofChild, rowsOf, decisionRow, hid]
    · refine List.filter_eq_nil_iff.mpr fun timer htimer => ?_
      rw [htimers timer htimer]
      simpa using hid
    · simp [Rows.ofChild, rowsOf, activityRow, hid]

theorem rowsOfAll_cons (now : Int) (parent : Parent) (author : Option Uuid) (t : TaskPayload)
    (ts : List TaskPayload) :
    rowsOfAll now parent author (t :: ts) =
      (rowsOf now parent author t).append (rowsOfAll now parent author ts) := rfl

variable {parent : Parent} {ts : List TaskPayload} {author : Option Uuid}

theorem ofChild_rowsOfAll_of_not_mem {now : Int} {id : ChildId}
    (h : id ∉ ts.map TaskPayload.childId) : (rowsOfAll now parent author ts).ofChild id = {} := by
  induction ts with
  | nil => rfl
  | cons t ts ih =>
    rw [List.map_cons, List.mem_cons, not_or] at h
    rw [rowsOfAll_cons, ofChild_append, ofChild_rowsOf, if_neg (Ne.symm h.1), ih h.2]
    rfl

theorem ofChild_rowsOfAll {now : Int} (hnodup : (ts.map TaskPayload.childId).Nodup)
    {t : TaskPayload} (ht : t ∈ ts) :
    (rowsOfAll now parent author ts).ofChild t.childId = rowsOf now parent author t := by
  induction ts with
  | nil => cases ht
  | cons u ts ih =>
    rw [List.map_cons, List.nodup_cons] at hnodup
    rw [rowsOfAll_cons, ofChild_append, ofChild_rowsOf]
    rcases List.mem_cons.mp ht with rfl | ht
    · rw [if_pos rfl, ofChild_rowsOfAll_of_not_mem hnodup.1, Rows.append_nil]
    · have hne : u.childId ≠ t.childId := by
        intro hsame
        exact hnodup.1 (hsame ▸ List.mem_map.mpr ⟨t, ht, rfl⟩)
      rw [if_neg hne, ih hnodup.2 ht]
      rfl

/-! ## Plans of a call -/

theorem childIds_nodup (call : Call) : call.childIds.Nodup := by
  cases call with
  | dispatch c dto => exact List.nodup_singleton _
  | dispatchBatch c tasks =>
    have hmap : (Call.dispatchBatch c tasks).childIds =
        (tasks.zipIdx.map Prod.snd).map (ChildId.dispatchBatch c) := by
      simp only [Call.childIds, Call.named, List.map_map]
      rfl
    rw [hmap]
    refine List.Nodup.map (fun i j h => (ChildId.dispatchBatch.inj h).2) ?_
    simpa using List.nodup_range'

variable {call : Call}

theorem key_of_mem_childIds {id : ChildId} (h : id ∈ call.childIds) : id.key = call.key := by
  cases call with
  | dispatch c dto =>
    obtain rfl := List.mem_singleton.mp h
    rfl
  | dispatchBatch c tasks =>
    simp only [Call.childIds, Call.named, List.map_map, List.mem_map] at h
    obtain ⟨task, _, rfl⟩ := h
    rfl

variable {cfg : Config} {clock : Nat → Int}

theorem childIds_of_plans (h : List.Forall₂ (Plans cfg) call.named ts) :
    ts.map TaskPayload.childId = call.childIds := by
  unfold Call.childIds
  generalize call.named = tasks at h
  induction h with
  | nil => rfl
  | cons hplan _ ih =>
    obtain ⟨now, hplan⟩ := hplan
    rw [List.map_cons, List.map_cons, ih, (planTask_spec hplan).1]

theorem hashed_of_scopes {tasks : List (DispatchDto × ChildId)}
    {us : List TaskPayload} (ht : List.Forall₂ (Plans cfg) tasks ts)
    (hu : List.Forall₂ (Plans cfg) tasks us)
    (hscope : ts.map TaskPayload.scope = us.map TaskPayload.scope) :
    ts.map TaskPayload.hashed = us.map TaskPayload.hashed := by
  induction ht generalizing us with
  | nil =>
    cases hu
    rfl
  | cons hplan _ ih =>
    cases hu with
    | cons hplan' hu =>
      obtain ⟨now, hplan⟩ := hplan
      obtain ⟨now', hplan'⟩ := hplan'
      rw [List.map_cons, List.map_cons, List.cons.injEq] at hscope
      rw [hscope.1] at hplan
      obtain ⟨v, hv, hhashed⟩ := planTask_hashed hplan' now _
      rw [hplan] at hv
      cases hv
      have hsame : ∀ (u : TaskPayload) (id : ChildId), u.childId = id →
          { u with childId := id } = u := by
        rintro u id rfl
        rfl
      rw [hsame _ _ (planTask_spec hplan').1] at hhashed
      rw [List.map_cons, List.map_cons, hhashed, ih hu hscope.2]

structure PlannedFrom (cfg : Config) (parent : Parent) (call : Call) (request : Request) :
    Prop where
  key : request.key = call.key
  plans : List.Forall₂ (Plans cfg) call.named request.payloads
  scopes : request.payloads.map TaskPayload.scope =
    call.named.map fun task => scopeOf parent task.1

theorem plansBatch {c : String} {tasks : List (DispatchDto × Nat)}
    (h : List.Forall₂ (fun task t => planBatchTask cfg parent clock c task = .ok t) tasks ts) :
    List.Forall₂ (Plans cfg)
        (tasks.map fun task => (task.1, ChildId.dispatchBatch c task.2)) ts ∧
      ts.map TaskPayload.scope = tasks.map fun task => scopeOf parent task.1 := by
  induction h with
  | nil => exact ⟨.nil, rfl⟩
  | cons hplan _ ih =>
    rename_i task t tasks ts _
    obtain ⟨_, _, hplan⟩ := bind_eq_ok.mp hplan
    have hscope := (planTask_spec hplan).2.1
    refine ⟨.cons ⟨clock task.2, ?_⟩ ih.1, ?_⟩
    · rw [hscope]
      exact hplan
    · rw [List.map_cons, List.map_cons, hscope, ih.2]

theorem plannedFrom_of_plan {actor : Option Uuid} {request : Request}
    (h : plan cfg actor parent clock call = .ok request) : PlannedFrom cfg parent call request := by
  cases call with
  | dispatch c dto =>
    obtain ⟨t, hplan, h⟩ := bind_eq_ok.mp h
    cases h
    obtain ⟨_, _, hplan⟩ := bind_eq_ok.mp hplan
    obtain ⟨_, _, hplan⟩ := bind_eq_ok.mp hplan
    obtain ⟨_, _, hplan⟩ := bind_eq_ok.mp hplan
    obtain ⟨t', htask, hplan⟩ := bind_eq_ok.mp hplan
    split at hplan
    · cases hplan
    · cases hplan
      have hscope := (planTask_spec htask).2.1
      refine ⟨rfl, .cons ⟨clock 0, ?_⟩ .nil, ?_⟩
      · rw [hscope]
        exact htask
      · show [t.scope] = [_]
        rw [hscope]
  | dispatchBatch c tasks =>
    obtain ⟨ts, hplan, h⟩ := bind_eq_ok.mp h
    cases h
    unfold planDispatchBatch at hplan
    split at hplan
    · cases hplan
    split at hplan
    · cases hplan
    obtain ⟨_, _, hplan⟩ := bind_eq_ok.mp hplan
    obtain ⟨_, _, hplan⟩ := bind_eq_ok.mp hplan
    obtain ⟨hplans, hscopes⟩ := plansBatch (mapM_eq_ok.mp hplan)
    refine ⟨rfl, hplans, ?_⟩
    show ts.map TaskPayload.scope = List.map _ (List.map _ _)
    rw [List.map_map]
    exact hscopes

theorem plan_again {actor actor' : Option Uuid} {parent' : Parent}
    {request : Request} (h : plan cfg actor parent clock call = .ok request)
    (hactor : gateActor actor' parent' = .ok ()) (hparent : gateParent parent' = .ok ())
    (hscopes : call.named.map (fun task => scopeOf parent' task.1) =
      call.named.map fun task => scopeOf parent task.1) (clock' : Nat → Int) :
    ∃ request', plan cfg actor' parent' clock' call = .ok request' := by
  have hscope : ∀ task ∈ call.named, scopeOf parent' task.1 = scopeOf parent task.1 :=
    fun task htask => List.map_inj_left.mp hscopes task htask
  cases call with
  | dispatch c dto =>
    obtain ⟨t, hplan, h⟩ := bind_eq_ok.mp h
    cases h
    obtain ⟨_, _, hplan⟩ := bind_eq_ok.mp hplan
    obtain ⟨_, htitle, hplan⟩ := bind_eq_ok.mp hplan
    obtain ⟨_, _, hplan⟩ := bind_eq_ok.mp hplan
    obtain ⟨t', htask, hplan⟩ := bind_eq_ok.mp hplan
    split at hplan
    · cases hplan
    · rename_i hname
      obtain ⟨u, hu, _⟩ := planTask_hashed htask (clock' 0) (.dispatch c)
      refine ⟨.dispatch c u, bind_eq_ok.mpr ⟨u, ?_, rfl⟩⟩
      refine bind_eq_ok.mpr ⟨(), hactor, bind_eq_ok.mpr ⟨(), htitle, bind_eq_ok.mpr ⟨(), hparent,
        bind_eq_ok.mpr ⟨u, ?_, if_neg hname⟩⟩⟩⟩
      rw [hscope (dto, .dispatch c) List.mem_cons_self]
      exact hu
  | dispatchBatch c tasks =>
    obtain ⟨ts, hplan, h⟩ := bind_eq_ok.mp h
    cases h
    unfold planDispatchBatch at hplan
    split at hplan
    · cases hplan
    rename_i hname
    split at hplan
    · cases hplan
    rename_i htasks
    obtain ⟨_, _, hplan⟩ := bind_eq_ok.mp hplan
    obtain ⟨_, _, hplan⟩ := bind_eq_ok.mp hplan
    have hplans := mapM_eq_ok.mp hplan
    obtain ⟨us, hus⟩ : ∃ us, List.Forall₂
        (fun task t => planBatchTask cfg parent' clock' c task = .ok t) tasks.zipIdx us := by
      refine exists_forall₂ fun task htask => ?_
      obtain ⟨t, _, ht⟩ := forall₂_exists_right hplans htask
      obtain ⟨_, htitle, ht⟩ := bind_eq_ok.mp ht
      obtain ⟨u, hu, _⟩ := planTask_hashed ht (clock' task.2) (.dispatchBatch c task.2)
      refine ⟨u, bind_eq_ok.mpr ⟨(), htitle, ?_⟩⟩
      rw [hscope (task.1, .dispatchBatch c task.2) (List.mem_map.mpr ⟨task, htask, rfl⟩)]
      exact hu
    refine ⟨.dispatchBatch c us, bind_eq_ok.mpr ⟨us, ?_, rfl⟩⟩
    unfold planDispatchBatch
    rw [if_neg hname, if_neg htasks]
    exact bind_eq_ok.mpr ⟨(), hactor, bind_eq_ok.mpr ⟨(), hparent, mapM_eq_ok.mpr hus⟩⟩

end Prequest.Dispatch
