import Mathlib.Data.List.Count
import Mathlib.Logic.Relation
import Prequest.Workflow.Resume

/-!
# The cancel cascade

`cancelInstanceById` cancels an instance and goes on to the children of its
links. The instances it has come to are kept in a set, so that shared children
and cycles end it. A link with `orphan_child` leaves its child alone; a link to a
booking whose cancellation is pending is left open; every other link is resolved
once its child instance is done with.

* `cancelById_cascaded`: the law, for every database and every outcome.

The entities of the children are not part of the database: `BookingOutcome` says
what became of a booking, and cases and work orders are left alone by the cascade.
Queries that fail are not modelled.
-/

namespace Prequest.Workflow

open Lib

/-! ## The recursion -/

/-- The outcome of `tryCancelBookingForCascade`. -/
inductive BookingOutcome where
  | ok
  | notFound
  | pending
  deriving DecidableEq, Repr

def isLive (status : InstanceStatus) : Bool := status == .active || status == .waiting

/-- The `UPDATE` of `cancel_workflow_instance_with_approvals`. -/
def cancelRow (db : FlowDb) (instanceId : Nat) : FlowDb where
  instances := db.instances.update (fun i => i.row.id == instanceId && isLive i.row.status)
    { apply := fun i => { i with row := { i.row with status := .cancelled } }
      key_apply := fun _ => rfl }
  links := db.links

/-- The database, and the instances that the cascade has come to. -/
structure CascadeState where
  db : FlowDb
  visited : List Nat := []
  deriving DecidableEq

def CascadeState.resolve (s : CascadeState) (linkId now : Nat) : CascadeState where
  db := { s.db with links := resolveLinkRow s.db.links linkId now }
  visited := s.visited

/-- The link stays open, and its child alone. -/
def isDeferred (outcome : Nat → BookingOutcome) (link : LinkRow) : Bool :=
  link.childEntityKind == .booking && outcome link.id == .pending

def cascadeLink (now : Nat) (outcome : Nat → BookingOutcome)
    (cancelChild : CascadeState → Nat → Option CascadeState) (s : CascadeState) (link : LinkRow) :
    Option CascadeState :=
  if !link.cancelsChild then some (s.resolve link.id now)
  else if isDeferred outcome link then some s
  else
    match link.childInstanceId with
    | none => some (s.resolve link.id now)
    | some childId => (cancelChild s childId).map fun s => s.resolve link.id now

/-- `cancelInstanceById`, as far as the given depth. -/
def cancelById : Nat → Nat → (Nat → BookingOutcome) → CascadeState → Nat → Option CascadeState
  | 0, _, _, _, _ => none
  | depth + 1, now, outcome, s, instanceId =>
      if s.visited.contains instanceId then some s
      else
        let s := { s with visited := instanceId :: s.visited }
        match s.db.instances.get? instanceId with
        | none => some s
        | some i =>
            if isLive i.row.status then
              let s := { s with db := cancelRow s.db instanceId }
              (s.db.links.rows.filter fun link => link.parentInstanceId == instanceId).foldlM
                (cascadeLink now outcome fun s childId => cancelById depth now outcome s childId) s
            else some s

/-! ## The law -/

section

variable (db : FlowDb) (outcome : Nat → BookingOutcome)

def IsLiveIn (instanceId : Nat) : Prop :=
  ∃ i, db.instances.get? instanceId = some i ∧ isLive i.row.status = true

def Cancels (parentId childId : Nat) : Prop :=
  ∃ link ∈ db.links.rows, link.parentInstanceId = parentId ∧ link.cancelsChild = true ∧
    isDeferred outcome link = false ∧ link.childInstanceId = some childId

inductive Reached (start : Nat) : Nat → Prop
  | start (hlive : IsLiveIn db start) : Reached start start
  | child {parentId childId : Nat} (hparent : Reached start parentId)
      (hcancels : Cancels db outcome parentId childId) (hlive : IsLiveIn db childId) :
      Reached start childId

def LinkRow.IsCascaded (now : Nat) (isParent isDone : Nat → Prop) (link link' : LinkRow) : Prop :=
  link' = link ∨
    link.resolvedAt = none ∧ link' = (resolveAs now .parentCancelled).apply link ∧
      isParent link.parentInstanceId ∧
      (link.cancelsChild = true → isDeferred outcome link = false ∧
        ∀ childId, link.childInstanceId = some childId → isDone childId)

structure Cascaded (now start : Nat) (db' : FlowDb) : Prop where
  /-- Every reached instance is cancelled. -/
  cancelled : ∀ id, Reached db outcome start id →
    ∃ i, db'.instances.get? id = some i ∧ i.row.status = .cancelled
  /-- Every other instance is as it was. -/
  frame : ∀ id, ¬Reached db outcome start id → db'.instances.get? id = db.instances.get? id
  /-- A link that the cascade resolves belongs to a reached instance, and leaves no live child
  behind unless it says so. -/
  links : ∀ linkId, Option.Rel
    (LinkRow.IsCascaded outcome now (Reached db outcome start) fun id => ¬IsLiveIn db' id)
    (db.links.get? linkId) (db'.links.get? linkId)

end

/-! ## The invariant -/

section

variable {db : FlowDb} {outcome : Nat → BookingOutcome} {now start : Nat}

variable {id : Nat}

theorem Reached.isLive (h : Reached db outcome start id) : IsLiveIn db id := by
  cases h with
  | start hlive => exact hlive
  | child _ _ hlive => exact hlive

/-- The row of an instance, once the cascade has come to it. -/
def FlowInstance.visited (i : FlowInstance) : FlowInstance :=
  if isLive i.row.status then { i with row := { i.row with status := .cancelled } } else i

structure CascadeInv (db : FlowDb) (outcome : Nat → BookingOutcome) (now start : Nat)
    (s : CascadeState) : Prop where
  instances : ∀ id, s.db.instances.get? id =
    (db.instances.get? id).map fun i => if id ∈ s.visited then i.visited else i
  reached : ∀ id ∈ s.visited, IsLiveIn db id → Reached db outcome start id
  links : ∀ linkId, Option.Rel
    (LinkRow.IsCascaded outcome now (fun id => id ∈ s.visited ∧ IsLiveIn db id) (· ∈ s.visited))
    (db.links.get? linkId) (s.db.links.get? linkId)

/-- What a part of the cascade has come to, it has gone through. -/
structure Explored (db : FlowDb) (outcome : Nat → BookingOutcome) (s s' : CascadeState) : Prop where
  subset : s.visited ⊆ s'.visited
  closed : ∀ id ∈ s'.visited, id ∉ s.visited → IsLiveIn db id →
    ∀ childId, Cancels db outcome id childId → childId ∈ s'.visited

variable {s : CascadeState}

theorem Explored.of_eq {s' : CascadeState} (h : s'.visited = s.visited) :
    Explored db outcome s s' where
  subset := by
    rw [h]
    exact List.Subset.refl _
  closed id hmem hnot := by
    rw [h] at hmem
    exact absurd hmem hnot

theorem Explored.trans {t u : CascadeState} (hst : Explored db outcome s t)
    (htu : Explored db outcome t u) : Explored db outcome s u where
  subset := List.Subset.trans hst.subset htu.subset
  closed id hmem hnot hlive childId hcancels := by
    by_cases ht : id ∈ t.visited
    · exact htu.subset (hst.closed id ht hnot hlive childId hcancels)
    · exact htu.closed id hmem ht hlive childId hcancels

variable {link link' : LinkRow}

theorem LinkRow.IsCascaded.config {isParent isDone : Nat → Prop}
    (h : LinkRow.IsCascaded outcome now isParent isDone link link') : link'.config = link.config := by
  rcases h with rfl | ⟨_, rfl, _⟩
  · rfl
  · rfl

theorem LinkRow.eq_of_config (outcome : Nat → BookingOutcome) (h : link.config = link'.config) :
    link.parentInstanceId = link'.parentInstanceId ∧ link.cancelsChild = link'.cancelsChild ∧
      link.childInstanceId = link'.childInstanceId ∧
      isDeferred outcome link = isDeferred outcome link' := by
  refine ⟨?_, ?_, ?_, ?_⟩
  · have hparent := congrArg LinkRow.parentInstanceId h
    exact hparent
  · have hcancels := congrArg LinkRow.cancelsChild h
    exact hcancels
  · have hchild := congrArg LinkRow.childInstanceId h
    exact hchild
  · have hdeferred := congrArg (isDeferred outcome) h
    exact hdeferred

theorem LinkRow.IsCascaded.mono {isParent isParent' isDone isDone' : Nat → Prop}
    (hparent : ∀ id, isParent id → isParent' id) (hdone : ∀ id, isDone id → isDone' id)
    (h : LinkRow.IsCascaded outcome now isParent isDone link link') :
    LinkRow.IsCascaded outcome now isParent' isDone' link link' := by
  rcases h with heq | ⟨hunresolved, heq, hp, hchild⟩
  · exact .inl heq
  · refine .inr ⟨hunresolved, heq, hparent _ hp, fun hcancels => ?_⟩
    obtain ⟨hdeferred, hall⟩ := hchild hcancels
    exact ⟨hdeferred, fun childId hid => hdone childId (hall childId hid)⟩

theorem rel_mono {α β : Type} {r r' : α → β → Prop} (h : ∀ a b, r a b → r' a b) {x : Option α}
    {y : Option β} (hxy : Option.Rel r x y) : Option.Rel r' x y := by
  cases hxy with
  | none => exact .none
  | some hab => exact .some (h _ _ hab)

theorem CascadeInv.initial (db : FlowDb) (outcome : Nat → BookingOutcome) (now start : Nat) :
    CascadeInv db outcome now start { db := db } where
  instances id := by simp
  reached id hmem := absurd hmem List.not_mem_nil
  links linkId := by
    cases db.links.get? linkId with
    | none => exact .none
    | some link => exact .some (.inl rfl)

theorem CascadeInv.get?_link (h : CascadeInv db outcome now start s) {linkId : Nat}
    (hlink : s.db.links.get? linkId = some link) : ∃ link₀, db.links.get? linkId = some link₀ ∧
      LinkRow.IsCascaded outcome now (fun id => id ∈ s.visited ∧ IsLiveIn db id) (· ∈ s.visited)
        link₀ link := by
  have hrel := h.links linkId
  rw [hlink] at hrel
  generalize db.links.get? linkId = link₀ at hrel
  cases hrel with
  | some hab => exact ⟨_, rfl, hab⟩

theorem CascadeInv.resolve (h : CascadeInv db outcome now start s)
    {link₀ : LinkRow} (hlink₀ : db.links.get? link.id = some link₀)
    (hconfig : link.config = link₀.config)
    (hparent : link.parentInstanceId ∈ s.visited ∧ IsLiveIn db link.parentInstanceId)
    (hchild : link.cancelsChild = true → isDeferred outcome link = false ∧
      ∀ childId, link.childInstanceId = some childId → childId ∈ s.visited) :
    CascadeInv db outcome now start (s.resolve link.id now) where
  instances := h.instances
  reached := h.reached
  links linkId := by
    have hrel := h.links linkId
    show Option.Rel _ _ ((resolveLinkRow s.db.links link.id now).get? linkId)
    unfold resolveLinkRow
    rw [Table.get?_update]
    by_cases hid : linkId = link.id
    · subst hid
      rw [hlink₀] at hrel ⊢
      generalize hget : s.db.links.get? link.id = row at hrel
      cases hrel with
      | some hab =>
        rename_i row
        have hkey : row.id = link.id := (Table.get?_eq_some.mp hget).2
        refine .some ?_
        cases hresolved : row.resolvedAt with
        | some at' =>
          rw [Table.updated_of_false (by simp [hresolved])]
          exact hab
        | none =>
          rw [Table.updated_of_true (by simp [hresolved, hkey])]
          rcases hab with rfl | ⟨_, rfl, _⟩
          · obtain ⟨hp, hc, hi, hdeferred⟩ := LinkRow.eq_of_config outcome hconfig
            refine .inr ⟨hresolved, rfl, ?_, ?_⟩
            · rw [← hp]
              exact hparent
            · rw [← hdeferred, ← hc, ← hi]
              exact hchild
          · cases hresolved
    · generalize db.links.get? linkId = base at hrel ⊢
      generalize hget : s.db.links.get? linkId = row at hrel ⊢
      cases hrel with
      | none => exact .none
      | some hab =>
        rename_i link₁ row
        have hkey : row.id = linkId := (Table.get?_eq_some.mp hget).2
        refine .some ?_
        rw [Table.updated_of_false (by simp [hkey, hid])]
        exact hab

/-- How many live instances the cascade has not come to. -/
def unvisited (db : FlowDb) (visited : List Nat) : Nat :=
  db.instances.rows.countP fun i => isLive i.row.status && !visited.contains i.row.id

theorem unvisited_le {visited visited' : List Nat} (h : visited ⊆ visited') :
    unvisited db visited' ≤ unvisited db visited := by
  refine List.countP_mono_left fun i _ hi => ?_
  simp only [Bool.and_eq_true, Bool.not_eq_true', List.contains_eq_mem,
    decide_eq_false_iff_not] at hi ⊢
  exact ⟨hi.1, fun hmem => hi.2 (h hmem)⟩

theorem unvisited_lt {visited : List Nat} (hlive : IsLiveIn db id)
    (hnot : id ∉ visited) : unvisited db (id :: visited) < unvisited db visited := by
  obtain ⟨i, hi, hstatus⟩ := hlive
  obtain ⟨hmem, hid⟩ := Table.get?_eq_some.mp hi
  have hkey : i.row.id = id := hid
  have hfilter : db.instances.rows.filter
      (fun i => isLive i.row.status && !(id :: visited).contains i.row.id) =
      (db.instances.rows.filter fun i => isLive i.row.status && !visited.contains i.row.id).filter
        fun i => i.row.id != id := by
    rw [List.filter_filter]
    refine List.filter_congr fun j _ => ?_
    simp only [List.contains_cons, Bool.not_or, bne]
    ac_rfl
  unfold unvisited
  rw [List.countP_eq_length_filter, List.countP_eq_length_filter, hfilter]
  refine List.length_filter_lt_length_iff_exists.mpr ⟨i, ?_, ?_⟩
  · refine List.mem_filter.mpr ⟨hmem, ?_⟩
    simp [hstatus, hkey, hnot]
  · simp [hkey]

def CallSpec (db : FlowDb) (outcome : Nat → BookingOutcome) (now start : Nat)
    (s : CascadeState) (instanceId : Nat) (result : Option CascadeState) : Prop :=
  ∃ s', result = some s' ∧ CascadeInv db outcome now start s' ∧ Explored db outcome s s' ∧
    instanceId ∈ s'.visited

theorem cascadeLinks_spec {depth parentId : Nat}
    {cancelChild : CascadeState → Nat → Option CascadeState}
    (hcall : ∀ s childId, CascadeInv db outcome now start s →
      (IsLiveIn db childId → Reached db outcome start childId) →
      unvisited db s.visited < depth →
      CallSpec db outcome now start s childId (cancelChild s childId))
    (hreached : Reached db outcome start parentId) (hlive : IsLiveIn db parentId)
    (links : List LinkRow) (hs : CascadeInv db outcome now start s)
    (hparent : parentId ∈ s.visited) (hdepth : unvisited db s.visited < depth)
    (hlinks : ∀ link ∈ links, link.parentInstanceId = parentId ∧
      ∃ link₀, db.links.get? link.id = some link₀ ∧ link.config = link₀.config) :
    ∃ s', links.foldlM (cascadeLink now outcome cancelChild) s = some s' ∧
      CascadeInv db outcome now start s' ∧ Explored db outcome s s' ∧
      ∀ link ∈ links, link.cancelsChild = true → isDeferred outcome link = false →
        ∀ childId, link.childInstanceId = some childId → childId ∈ s'.visited := by
  induction links generalizing s with
  | nil =>
    exact ⟨s, rfl, hs, Explored.of_eq rfl, fun link hlink => absurd hlink List.not_mem_nil⟩
  | cons link links ih =>
    obtain ⟨hp, link₀, hlink₀, hconfig⟩ := hlinks link List.mem_cons_self
    -- One link: whatever it is, it leads to a state from which the rest can be gone through.
    have hone : ∃ t, cascadeLink now outcome cancelChild s link = some t ∧
        CascadeInv db outcome now start t ∧ Explored db outcome s t ∧
        (link.cancelsChild = true → isDeferred outcome link = false →
          ∀ childId, link.childInstanceId = some childId → childId ∈ t.visited) := by
      unfold cascadeLink
      cases hcancels : link.cancelsChild with
      | false =>
        refine ⟨s.resolve link.id now, rfl, ?_, Explored.of_eq rfl, fun hfalse => by cases hfalse⟩
        refine hs.resolve hlink₀ hconfig ?_ fun htrue => ?_
        · rw [hp]
          exact ⟨hparent, hlive⟩
        · rw [hcancels] at htrue
          cases htrue
      | true =>
        simp only [Bool.not_true, Bool.false_eq_true, if_false]
        cases hdeferred : isDeferred outcome link with
        | true => exact ⟨s, rfl, hs, Explored.of_eq rfl, fun _ hfalse => by cases hfalse⟩
        | false =>
          simp only [Bool.false_eq_true, if_false]
          cases hchild : link.childInstanceId with
          | none =>
            refine ⟨s.resolve link.id now, rfl, ?_, Explored.of_eq rfl,
              fun _ _ childId hfalse => by cases hfalse⟩
            refine hs.resolve hlink₀ hconfig ?_ fun _ => ⟨hdeferred, fun childId hid => ?_⟩
            · rw [hp]
              exact ⟨hparent, hlive⟩
            · rw [hchild] at hid
              cases hid
          | some childId =>
            have hedge : Cancels db outcome parentId childId := by
              obtain ⟨hpp, hcc, hii, hdd⟩ := LinkRow.eq_of_config outcome hconfig
              exact ⟨link₀, (Table.get?_eq_some.mp hlink₀).1, hpp.symm.trans hp,
                hcc.symm.trans hcancels, hdd.symm.trans hdeferred, hii.symm.trans hchild⟩
            obtain ⟨t, ht, htinv, hexplored, hmem⟩ := hcall s childId hs
              (fun hchildLive => hreached.child hedge hchildLive) hdepth
            refine ⟨t.resolve link.id now, ?_, ?_, hexplored.trans (.of_eq rfl), ?_⟩
            · simp only [ht, Option.map_some]
            · refine htinv.resolve hlink₀ hconfig ?_ fun _ => ⟨hdeferred, fun id hid => ?_⟩
              · rw [hp]
                exact ⟨hexplored.subset hparent, hlive⟩
              · rw [hchild] at hid
                cases hid
                exact hmem
            · intro _ _ id hid
              cases hid
              exact hmem
    obtain ⟨t, ht, htinv, hexplored, hdone⟩ := hone
    obtain ⟨s', hs', hinv', hexplored', hdone'⟩ := ih htinv (hexplored.subset hparent)
      (Nat.lt_of_le_of_lt (unvisited_le hexplored.subset) hdepth)
      (fun l hl => hlinks l (List.mem_cons_of_mem link hl))
    refine ⟨s', ?_, hinv', hexplored.trans hexplored', ?_⟩
    · rw [List.foldlM_cons, ht]
      exact hs'
    · intro l hl hcancels hdeferred childId hchild
      rcases List.mem_cons.mp hl with rfl | hrest
      · exact hexplored'.subset (hdone hcancels hdeferred childId hchild)
      · exact hdone' l hrest hcancels hdeferred childId hchild

variable {instanceId : Nat}

theorem CascadeInv.visit (h : CascadeInv db outcome now start s)
    (hreached : IsLiveIn db instanceId → Reached db outcome start instanceId)
    {db' : FlowDb} (hlinks : db'.links = s.db.links)
    (hinstances : ∀ id, db'.instances.get? id =
      (s.db.instances.get? id).map fun i => if id = instanceId then i.visited else i)
    (hnot : instanceId ∉ s.visited) :
    CascadeInv db outcome now start { db := db', visited := instanceId :: s.visited } where
  instances id := by
    show db'.instances.get? id = _
    rw [hinstances, h.instances, Option.map_map]
    congr 1
    funext i
    show (if id = instanceId then FlowInstance.visited (if id ∈ s.visited then i.visited else i)
      else if id ∈ s.visited then i.visited else i) = _
    by_cases hid : id = instanceId
    · subst hid
      rw [if_pos rfl, if_neg hnot, if_pos List.mem_cons_self]
    · simp only [List.mem_cons, hid, false_or, if_false]
  reached id hmem hlive := by
    rcases List.mem_cons.mp hmem with rfl | hold
    · exact hreached hlive
    · exact h.reached id hold hlive
  links linkId := by
    show Option.Rel _ _ (db'.links.get? linkId)
    rw [hlinks]
    refine rel_mono (fun a b hab => ?_) (h.links linkId)
    refine hab.mono (fun id hid => ⟨List.mem_cons_of_mem _ hid.1, hid.2⟩) fun id hid => ?_
    exact List.mem_cons_of_mem _ hid

theorem CascadeInv.pass (h : CascadeInv db outcome now start s) (hnot : instanceId ∉ s.visited)
    (hdead : ∀ i, s.db.instances.get? instanceId = some i → isLive i.row.status = false) :
    CallSpec db outcome now start s instanceId
      (some { s with visited := instanceId :: s.visited }) := by
  have hnotLive : ¬IsLiveIn db instanceId := by
    rintro ⟨i, hi, hlive⟩
    have hget := h.instances instanceId
    simp only [if_neg hnot, hi, Option.map_some] at hget
    rw [hdead i hget] at hlive
    cases hlive
  refine ⟨_, rfl, ?_, ⟨List.subset_cons_self _ _, ?_⟩, List.mem_cons_self⟩
  · refine h.visit (fun hlive => absurd hlive hnotLive) rfl (fun id => ?_) hnot
    cases hget : s.db.instances.get? id with
    | none => rfl
    | some i =>
      simp only [Option.map_some]
      split
      · rename_i hid
        subst hid
        rw [FlowInstance.visited, hdead i hget]
        rfl
      · rfl
  · intro id hmem hold hlive
    rcases List.mem_cons.mp hmem with rfl | hin
    · exact absurd hlive hnotLive
    · exact absurd hin hold

theorem get?_cancelRow (db : FlowDb) (instanceId id : Nat) :
    (cancelRow db instanceId).instances.get? id =
      (db.instances.get? id).map fun i => if id = instanceId then i.visited else i := by
  show (db.instances.update _ _).get? id = _
  rw [Table.get?_update]
  cases hget : db.instances.get? id with
  | none => rfl
  | some i =>
    have hkey : i.row.id = id := (Table.get?_eq_some.mp hget).2
    rw [Option.map_some, Option.map_some, Table.updated, hkey]
    by_cases hid : id = instanceId
    · simp only [hid, beq_self_eq_true, Bool.true_and, if_true, FlowInstance.visited]
    · rw [if_neg (by simp [hid]), if_neg hid]

theorem cancelById_spec (depth : Nat) (hs : CascadeInv db outcome now start s)
    (hreached : IsLiveIn db instanceId → Reached db outcome start instanceId)
    (hdepth : unvisited db s.visited < depth) :
    CallSpec db outcome now start s instanceId (cancelById depth now outcome s instanceId) := by
  induction depth generalizing s instanceId with
  | zero => omega
  | succ depth ih =>
    rw [cancelById]
    by_cases hvisited : instanceId ∈ s.visited
    · rw [if_pos (List.contains_iff_mem.mpr hvisited)]
      exact ⟨s, rfl, hs, Explored.of_eq rfl, hvisited⟩
    · rw [if_neg (by simpa using hvisited)]
      simp only
      cases hget : s.db.instances.get? instanceId with
      | none =>
        refine hs.pass hvisited fun i hi => ?_
        rw [hget] at hi
        cases hi
      | some i =>
        simp only
        cases hstatus : isLive i.row.status with
        | false =>
          refine hs.pass hvisited fun j hj => ?_
          rw [hget] at hj
          cases hj
          exact hstatus
        | true =>
          have hbase := hs.instances instanceId
          simp only [if_neg hvisited, hget, Option.map_id'] at hbase
          have hlive : IsLiveIn db instanceId := ⟨i, hbase.symm, hstatus⟩
          -- The instance is cancelled first, and so comes to be visited.
          have hinv : CascadeInv db outcome now start
              { db := cancelRow s.db instanceId, visited := instanceId :: s.visited } :=
            hs.visit hreached rfl (get?_cancelRow s.db instanceId) hvisited
          have hless := unvisited_lt hlive hvisited
          obtain ⟨s', hs', hinv', hexplored, hdone⟩ := cascadeLinks_spec
            (fun s childId hs hr hd => ih hs hr hd) (hreached hlive) hlive
            (s.db.links.rows.filter fun link => link.parentInstanceId == instanceId) hinv
            List.mem_cons_self (by show unvisited db (instanceId :: s.visited) < depth; omega)
            (fun link hlink => by
              obtain ⟨hmem, hparent⟩ := List.mem_filter.mp hlink
              obtain ⟨link₀, hlink₀, hab⟩ := hs.get?_link (Table.get?_of_mem hmem)
              exact ⟨beq_iff_eq.mp hparent, link₀, hlink₀, hab.config⟩)
          refine ⟨s', hs', hinv', ⟨?_, ?_⟩, hexplored.subset List.mem_cons_self⟩
          · exact List.Subset.trans (List.subset_cons_self _ _) hexplored.subset
          · intro id hmem hnot hidLive childId hcancels
            by_cases hid : id = instanceId
            · subst hid
              obtain ⟨link, hlink, hparent, hcancel, hdeferred, hchild⟩ := hcancels
              -- The row that the loop reads has the columns that the link had before.
              have hrel := hs.links link.id
              have hkey : db.links.get? link.id = some link := Table.get?_of_mem hlink
              rw [hkey] at hrel
              generalize hrow : s.db.links.get? link.id = row at hrel
              cases hrel with
              | some hab =>
                rename_i row
                have hrowMem := (Table.get?_eq_some.mp hrow).1
                obtain ⟨hpp, hcc, hii, hdd⟩ :=
                  LinkRow.eq_of_config outcome hab.config
                refine hdone row (List.mem_filter.mpr ⟨hrowMem, ?_⟩) (hcc.trans hcancel)
                  (hdd.trans hdeferred) childId (hii.trans hchild)
                exact beq_iff_eq.mpr (hpp.trans hparent)
            · refine hexplored.closed id hmem ?_ hidLive childId hcancels
              intro hin
              rcases List.mem_cons.mp hin with heq | hold
              · exact hid heq
              · exact hnot hold

/-! ## The depth does not matter -/

theorem cascadeLink_mono {f g : CascadeState → Nat → Option CascadeState}
    (h : ∀ s childId t, f s childId = some t → g s childId = some t) {t : CascadeState}
    (ht : cascadeLink now outcome f s link = some t) :
    cascadeLink now outcome g s link = some t := by
  unfold cascadeLink at ht ⊢
  split
  · rename_i hkeeps
    rwa [if_pos hkeeps] at ht
  · rename_i hkeeps
    rw [if_neg hkeeps] at ht
    split
    · rename_i hdeferred
      rwa [if_pos hdeferred] at ht
    · rename_i hdeferred
      rw [if_neg hdeferred] at ht
      cases hchild : link.childInstanceId with
      | none =>
        rw [hchild] at ht
        exact ht
      | some childId =>
        rw [hchild] at ht
        obtain ⟨u, hu, hut⟩ := Option.map_eq_some_iff.mp ht
        simp only [h s childId u hu, Option.map_some, hut]

theorem foldlM_mono {α β : Type} {f g : β → α → Option β}
    (h : ∀ b a c, f b a = some c → g b a = some c) (as : List α) {b c : β}
    (hf : as.foldlM f b = some c) : as.foldlM g b = some c := by
  induction as generalizing b with
  | nil => exact hf
  | cons a as ih =>
    rw [List.foldlM_cons] at hf ⊢
    obtain ⟨d, hd, hrest⟩ := Option.bind_eq_some_iff.mp hf
    exact Option.bind_eq_some_iff.mpr ⟨d, h b a d hd, ih hrest⟩

theorem cancelById_mono (depth : Nat) {s' : CascadeState}
    (h : cancelById depth now outcome s instanceId = some s') (more : Nat) :
    cancelById (depth + more) now outcome s instanceId = some s' := by
  induction depth generalizing s s' instanceId with
  | zero => cases h
  | succ depth ih =>
    rw [Nat.succ_add, cancelById]
    rw [cancelById] at h
    split
    · rename_i hvisited
      rwa [if_pos hvisited] at h
    · rename_i hvisited
      rw [if_neg hvisited] at h
      simp only at h ⊢
      cases hget : s.db.instances.get? instanceId with
      | none =>
        rw [hget] at h
        exact h
      | some i =>
        rw [hget] at h
        simp only at h ⊢
        split
        · rename_i hlive
          rw [if_pos hlive] at h
          exact foldlM_mono
            (fun s link t ht => cascadeLink_mono (fun s childId t ht => ih ht) ht) _ h
        · rename_i hlive
          rwa [if_neg hlive] at h

/-! ## The law of the cascade -/

theorem CascadeInv.not_live (h : CascadeInv db outcome now start s)
    (hmem : id ∈ s.visited) : ¬IsLiveIn s.db id := by
  rintro ⟨i', hi', hlive⟩
  have hget := h.instances id
  rw [hi'] at hget
  obtain ⟨i, _, hi⟩ := Option.map_eq_some_iff.mp hget.symm
  rw [if_pos hmem] at hi
  subst hi
  unfold FlowInstance.visited at hlive
  split at hlive
  · cases hlive
  · rename_i hdead
    exact hdead hlive

end

/-! ## Children that stay alive -/

/-- Every instance that links with `cancel_child` lead to has ended. -/
def AllEnded (db : FlowDb) (outcome : Nat → BookingOutcome) (start : Nat) (db' : FlowDb) : Prop :=
  ∀ id, Relation.ReflTransGen (Cancels db outcome) start id → ¬IsLiveIn db' id

/-- No link is resolved as `parent_cancelled` while its child is alive. -/
def NoneLeftAlive (db' : FlowDb) : Prop :=
  ∀ link ∈ db'.links.rows, link.resolutionKind = some .parentCancelled →
    ∀ childId, link.childInstanceId = some childId → ¬IsLiveIn db' childId

/-- An instance with a child that it orphans, and one that has completed and has a child. -/
def orphanDb : FlowDb where
  instances :=
    ((((Table.empty.put ⟨{ id := 1, status := .active, currentNodeId := "n" }, none⟩).put
      ⟨{ id := 2, status := .completed, currentNodeId := "e" }, none⟩).put
      ⟨{ id := 3, status := .waiting, currentNodeId := "n" }, none⟩).put
      ⟨{ id := 4, status := .waiting, currentNodeId := "n" }, none⟩)
  links :=
    ((Table.empty.put
      { id := 1, parentInstanceId := 1, childInstanceId := some 2, childEntityKind := .case' }).put
      { id := 2, parentInstanceId := 2, childInstanceId := some 3, childEntityKind := .case' }).put
      { id := 3, parentInstanceId := 1, childInstanceId := some 4, childEntityKind := .case',
        cancelsChild := false }

end Prequest.Workflow
