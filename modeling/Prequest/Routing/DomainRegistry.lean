import Mathlib.Data.List.Nodup
import Prequest.Lib.Forest
import Prequest.Lib.Run

/-!
# The registry of domains

Routing domains refer to their parents. The service that keeps them checks a new parent
with one read for each hop, and writes with another statement. No transaction holds the
reads and the write together, and a new domain is hung below its parent unchecked.

* `registryLaw_iff`: exactly the runs that always leave room keep the law.
* `cross_parenting`: two callers who hang two domains below each other.
-/

namespace Prequest.DomainRegistry

open Prequest.Lib

/-! ## Rows and calls -/

structure DomainRow where
  id : Nat
  tenantId : Nat
  key : String
  displayName : String
  parentDomainId : Option Nat
  active : Bool
  deriving DecidableEq, Repr

structure CreateDomainInput where
  tenantId : Nat
  key : String
  displayName : String
  parentDomainId : Option Nat
  deriving DecidableEq, Repr

/-- A field that is not given is left as it is. -/
structure UpdateDomainInput where
  tenantId : Nat
  id : Nat
  displayName : Option String
  parentDomainId : Option (Option Nat)
  active : Option Bool
  deriving DecidableEq, Repr

structure AppError where
  code : String
  status : Nat
  detail : Option String
  deriving DecidableEq, Repr

def validationFailed (code detail : String) : AppError := ⟨code, 400, some detail⟩

def dbFailed : AppError := ⟨"routing.db_failed", 500, none⟩

def maxParentWalk : Nat := 20

def get? (rows : List DomainRow) (tenantId id : Nat) : Option DomainRow :=
  rows.find? fun r => r.tenantId == tenantId && r.id == id

/-- `select parent_domain_id`, read within the tenant. -/
def parentOf (rows : List DomainRow) (tenantId id : Nat) : Option Nat :=
  (get? rows tenantId id).bind DomainRow.parentDomainId

/-- The next statement of a call, or its result. -/
inductive Progress where
  | idle
  | readParent (input : CreateDomainInput) (key : String)
  | inserting (input : CreateDomainInput) (key : String)
  | readCurrent (input : UpdateDomainInput)
  | walking (input : UpdateDomainInput) (candidate cursor hop : Nat)
  | writing (input : UpdateDomainInput)
  | ended (result : Except AppError DomainRow)

/-- `KEY_PATTERN`. -/
def matchesKeyPattern (key : String) : Bool :=
  match key.toList with
  | [] => false
  | c :: rest => alphanumeric c && rest.all fun c => alphanumeric c || c == '_' || c == '-'
where
  alphanumeric (c : Char) : Bool := ('a' ≤ c && c ≤ 'z') || ('0' ≤ c && c ≤ '9')

/-- `create`, to its first statement. `normalizeKey` trims the key and puts it in lower case. -/
def create (normalizeKey : String → String) (input : CreateDomainInput) : Progress :=
  let key := normalizeKey input.key
  if matchesKeyPattern key then
    match input.parentDomainId with
    | some _ => .readParent input key
    | none => .inserting input key
  else
    let given := input.key
    .ended (.error (validationFailed "routing.invalid_definition"
      s!"domain key \"{given}\" is invalid — must match [a-z0-9][a-z0-9_-]*"))

/-- `get`, when there is no row. -/
def notFound (id : Nat) : AppError := ⟨"routing.not_found", 404, some s!"domain {id} not found"⟩

/-- The head of the loop of `assertNoCycle`: whether the parent of a domain is read next. -/
def checkCursor (domainId candidate : Nat) (cursor : Option Nat) (hop : Nat) :
    Except AppError (Option Nat) :=
  match cursor with
  | none => .ok none
  | some a =>
      if hop < maxParentWalk then
        if a = domainId then
          .error (validationFailed "routing.invalid_definition"
            s!"setting parent {candidate} on domain {domainId} would create a cycle")
        else .ok (some a)
      else
        .error (validationFailed "routing.invalid_definition"
          s!"domain parentage chain exceeded {maxParentWalk} hops — likely a cycle")

/-- The loop of `update`, to its next statement. -/
def walkOn (input : UpdateDomainInput) (candidate : Nat) (cursor : Option Nat) (hop : Nat) : Progress :=
  match checkCursor input.id candidate cursor hop with
  | .error e => .ended (.error e)
  | .ok (some a) => .walking input candidate a hop
  | .ok none => .writing input

/-- `update`, from the row it has read on. -/
def updateCurrent (input : UpdateDomainInput) (current : DomainRow) : Progress :=
  if input.parentDomainId = some (some current.id) then
    .ended (.error (validationFailed "routing.field_required" "a domain cannot be its own parent"))
  else
    match input.parentDomainId.join with
    | some p =>
        if current.parentDomainId = some p then .writing input else walkOn input p (some p) 0
    | none =>
        -- An update of nothing writes nothing.
        if input.displayName = none ∧ input.parentDomainId = none ∧ input.active = none then
          .ended (.ok current)
        else .writing input

/-! ## Statements -/

structure Registry (ι : Type) where
  rows : List DomainRow
  caller : ι → Progress

/-- A call, the next statement of a caller (with the id that an insert draws), or one that fails. -/
inductive RegistryEvent (ι : Type) where
  | create (i : ι) (input : CreateDomainInput)
  | update (i : ι) (input : UpdateDomainInput)
  | next (i : ι) (drawn : Nat)
  | fail (i : ι)

/-- The foreign key: a parent is a domain, of whichever tenant. -/
def parentExists (rows : List DomainRow) (parentId : Option Nat) : Prop :=
  ∀ p ∈ parentId, ∃ r ∈ rows, r.id = p

instance (rows : List DomainRow) (parentId : Option Nat) : Decidable (parentExists rows parentId) :=
  inferInstanceAs (Decidable (∀ p ∈ parentId, ∃ r ∈ rows, r.id = p))

/-- `insert into domains`, where the row meets the constraints. -/
def insertDomain (rows : List DomainRow) (input : CreateDomainInput) (key : String) (drawn : Nat) :
    Except AppError DomainRow :=
  if (∃ r ∈ rows, r.id = drawn) ∨ ∃ r ∈ rows, r.tenantId = input.tenantId ∧ r.key = key then
    .error (validationFailed "routing.db_failed" s!"domain key \"{key}\" already exists for this tenant")
  else if parentExists rows input.parentDomainId then
    .ok ⟨drawn, input.tenantId, key, input.displayName, input.parentDomainId, true⟩
  else .error dbFailed

def patchRow (input : UpdateDomainInput) (r : DomainRow) : DomainRow :=
  { r with
    displayName := input.displayName.getD r.displayName
    parentDomainId := input.parentDomainId.getD r.parentDomainId
    active := input.active.getD r.active }

/-- A row after the statement, which writes one of them. -/
def updatedRow (input : UpdateDomainInput) (r : DomainRow) : DomainRow :=
  if r.tenantId = input.tenantId ∧ r.id = input.id then patchRow input r else r

/-- `update domains`, where the row is there and meets the constraints. -/
def updateDomain (rows : List DomainRow) (input : UpdateDomainInput) : Except AppError DomainRow :=
  match get? rows input.tenantId input.id with
  | none => .error dbFailed
  | some r =>
      if parentExists rows input.parentDomainId.join ∧ input.parentDomainId ≠ some (some input.id) then
        .ok (patchRow input r)
      else .error dbFailed

/-- Whether a caller can begin a call. -/
def Progress.free : Progress → Bool
  | .idle => true
  | .ended _ => true
  | _ => false

section

variable {ι : Type} [DecidableEq ι]

def Registry.setCaller (s : Registry ι) (i : ι) (p : Progress) : Registry ι :=
  { s with caller := Function.update s.caller i p }

def statement (s : Registry ι) (i : ι) (drawn : Nat) : Registry ι :=
  match s.caller i with
  | .idle => s
  | .ended _ => s
  | .readParent input key =>
      match input.parentDomainId with
      | none => s.setCaller i (.inserting input key)
      | some p =>
          match get? s.rows input.tenantId p with
          | none => s.setCaller i (.ended (.error (notFound p)))
          | some _ => s.setCaller i (.inserting input key)
  | .inserting input key =>
      match insertDomain s.rows input key drawn with
      | .error e => s.setCaller i (.ended (.error e))
      | .ok r => { s.setCaller i (.ended (.ok r)) with rows := s.rows ++ [r] }
  | .readCurrent input =>
      match get? s.rows input.tenantId input.id with
      | none => s.setCaller i (.ended (.error (notFound input.id)))
      | some current => s.setCaller i (updateCurrent input current)
  | .walking input candidate cursor hop =>
      s.setCaller i (walkOn input candidate (parentOf s.rows input.tenantId cursor) (hop + 1))
  | .writing input =>
      match updateDomain s.rows input with
      | .error e => s.setCaller i (.ended (.error e))
      | .ok r =>
          { s.setCaller i (.ended (.ok r)) with
            rows := s.rows.map (updatedRow input) }

def registryStep (normalizeKey : String → String) (s : Registry ι) : RegistryEvent ι → Registry ι
  | .create i input => if (s.caller i).free then s.setCaller i (create normalizeKey input) else s
  | .update i input => if (s.caller i).free then s.setCaller i (.readCurrent input) else s
  | .next i drawn => statement s i drawn
  | .fail i => if (s.caller i).free then s else s.setCaller i (.ended (.error dbFailed))

/-- Nobody has called. -/
def atRest (rows : List DomainRow) : Registry ι := ⟨rows, fun _ => .idle⟩

/-! ## The walk -/

/-- `assertNoCycle`, with as many hops left. -/
def walkFrom (parent : Nat → Option Nat) (domainId candidate : Nat) :
    Nat → Option Nat → Except AppError Unit
  | 0, cursor => (checkCursor domainId candidate cursor maxParentWalk).map fun _ => ()
  | left + 1, cursor =>
      match checkCursor domainId candidate cursor (maxParentWalk - (left + 1)) with
      | .error e => .error e
      | .ok none => .ok ()
      | .ok (some a) => walkFrom parent domainId candidate left (parent a)

def assertNoCycle (rows : List DomainRow) (tenantId domainId candidate : Nat) : Except AppError Unit :=
  walkFrom (parentOf rows tenantId) domainId candidate maxParentWalk (some candidate)

theorem walkFrom_eq_ok {parent : Nat → Option Nat} {domainId candidate left : Nat}
    {cursor : Option Nat} (hleft : left ≤ maxParentWalk) :
    walkFrom parent domainId candidate left cursor = .ok () ↔
      up parent left cursor = none ∧ ∀ e, e < left → up parent e cursor ≠ some domainId := by
  induction left generalizing cursor with
  | zero =>
    cases cursor with
    | none => exact iff_of_true rfl ⟨rfl, fun e he => nomatch he⟩
    | some a => exact iff_of_false nofun (nofun ∘ And.left)
  | succ left ih =>
    have hhop : maxParentWalk - (left + 1) < maxParentWalk := by omega
    cases cursor with
    | none =>
      refine iff_of_true rfl ⟨up_none _, fun e _ => ?_⟩
      rw [up_none]
      exact nofun
    | some a =>
      unfold walkFrom checkCursor
      simp only [if_pos hhop]
      by_cases ha : a = domainId
      · simp only [if_pos ha]
        exact iff_of_false nofun fun h => h.2 0 left.succ_pos (congrArg some ha)
      · simp only [if_neg ha]
        rw [ih (Nat.le_of_succ_le hleft)]
        constructor
        · rintro ⟨hends, havoids⟩
          refine ⟨hends, fun e he => ?_⟩
          cases e with
          | zero => exact fun heq => ha (Option.some.inj heq)
          | succ e => exact havoids e (Nat.lt_of_succ_lt_succ he)
        · rintro ⟨hends, havoids⟩
          exact ⟨hends, fun e he => havoids (e + 1) (Nat.succ_lt_succ he)⟩

end

/-! ## The chain of the resolver -/

/-- The loop of `domainChain`, with as many hops left; every hop reads for itself. -/
def chainFrom (readParent : Nat → String → Option String) :
    Nat → List String → String → List String
  | 0, chain, _ => chain
  | left + 1, chain, current =>
      match readParent left current with
      | none => chain
      | some parent =>
          if parent = "" ∨ parent ∈ chain then chain
          else chainFrom readParent left (chain ++ [parent]) parent

/-- `domainChain`, from the rows of `domain_parents`. -/
def domainChain (readParent : Nat → String → Option String) (domain : String) : List String :=
  chainFrom readParent 10 [domain] domain

theorem chainFrom_ends (readParent : Nat → String → Option String) (left : Nat) {chain : List String}
    (hnodup : chain.Nodup) (current : String) :
    (chainFrom readParent left chain current).length ≤ chain.length + left ∧
      (chainFrom readParent left chain current).Nodup := by
  induction left generalizing chain current with
  | zero => exact ⟨Nat.le_refl _, hnodup⟩
  | succ left ih =>
    unfold chainFrom
    cases readParent left current with
    | none => exact ⟨Nat.le_add_right _ _, hnodup⟩
    | some parent =>
      by_cases hstop : parent = "" ∨ parent ∈ chain
      · simp only [if_pos hstop]
        exact ⟨Nat.le_add_right _ _, hnodup⟩
      · simp only [if_neg hstop]
        have hfresh : (chain ++ [parent]).Nodup := by
          refine hnodup.append (List.nodup_singleton _) ?_
          rw [List.disjoint_singleton]
          exact fun hmem => hstop (.inr hmem)
        obtain ⟨hlength, hunique⟩ := ih hfresh parent
        rw [List.length_append, List.length_singleton] at hlength
        exact ⟨by omega, hunique⟩

/-! ## What is wanted -/

/-- The domains of every tenant are a forest, the walk gets to the root of every chain, and refuses no
parent that is not below the domain. -/
structure DomainLaw (rows : List DomainRow) : Prop where
  acyclic : ∀ tenantId a n, up (parentOf rows tenantId) (n + 1) (some a) ≠ some a
  short : ∀ tenantId, Within (parentOf rows tenantId) maxParentWalk
  legal : ∀ tenantId domainId candidate,
    (∀ d, up (parentOf rows tenantId) d (some candidate) ≠ some domainId) →
      assertNoCycle rows tenantId domainId candidate = .ok ()

variable {rows : List DomainRow}

theorem domainLaw_iff :
    DomainLaw rows ↔ ∀ tenantId, Within (parentOf rows tenantId) maxParentWalk := by
  constructor
  · exact DomainLaw.short
  · intro h
    refine ⟨fun tenantId => (h tenantId).ends.acyclic, h, fun tenantId domainId candidate havoids => ?_⟩
    exact (walkFrom_eq_ok (Nat.le_refl _)).mpr ⟨h tenantId candidate, fun e _ => havoids e⟩

/-! ## One step -/

section

variable {rows : List DomainRow} {tenantId id : Nat} {input : UpdateDomainInput}

theorem get?_eq_none : get? rows tenantId id = none ↔
    ∀ r ∈ rows, ¬(r.tenantId = tenantId ∧ r.id = id) := by
  unfold get?
  rw [List.find?_eq_none]
  simp only [Bool.and_eq_true, beq_iff_eq]

theorem parentOf_insert {new : DomainRow} (hfresh : ∀ r ∈ rows, r.id ≠ new.id) :
    parentOf (rows ++ [new]) tenantId =
      if new.tenantId = tenantId then
        Function.update (parentOf rows tenantId) new.id new.parentDomainId
      else parentOf rows tenantId := by
  funext a
  unfold parentOf get?
  rw [List.find?_append]
  by_cases hnew : new.tenantId = tenantId ∧ a = new.id
  · obtain ⟨htenant, rfl⟩ := hnew
    have hnone : get? rows tenantId new.id = none :=
      get?_eq_none.mpr fun r hr hid => hfresh r hr hid.2
    rw [show rows.find? (fun r => r.tenantId == tenantId && r.id == new.id) = none from hnone,
      if_pos htenant, Function.update_self]
    simp [htenant]
  · have hlast : [new].find? (fun r => r.tenantId == tenantId && r.id == a) = none := by
      simpa using fun htenant heq => hnew ⟨htenant, heq.symm⟩
    rw [hlast, Option.or_none]
    by_cases htenant : new.tenantId = tenantId
    · rw [if_pos htenant, Function.update_of_ne fun heq => hnew ⟨htenant, heq⟩]
    · rw [if_neg htenant]

section

variable (input : UpdateDomainInput)

@[simp] theorem updatedRow_tenantId (r : DomainRow) :
    (updatedRow input r).tenantId = r.tenantId := by
  unfold updatedRow
  split <;> rfl

@[simp] theorem updatedRow_id (r : DomainRow) : (updatedRow input r).id = r.id := by
  unfold updatedRow
  split <;> rfl

theorem get?_map_updatedRow (a : Nat) :
    get? (rows.map (updatedRow input)) tenantId a = (get? rows tenantId a).map (updatedRow input) := by
  unfold get?
  simp only [List.find?_map, Function.comp_def, updatedRow_tenantId, updatedRow_id]

end

theorem parentOf_update {row : DomainRow} (hrow : get? rows input.tenantId input.id = some row) :
    parentOf (rows.map (updatedRow input)) tenantId =
      match input.parentDomainId with
      | none => parentOf rows tenantId
      | some q =>
          if input.tenantId = tenantId then Function.update (parentOf rows tenantId) input.id q
          else parentOf rows tenantId := by
  funext a
  have hfound : ∀ r, get? rows tenantId a = some r → r.tenantId = tenantId ∧ r.id = a := by
    intro r hr
    simpa using List.find?_some hr
  have hkept : (∀ r, get? rows tenantId a = some r →
      (updatedRow input r).parentDomainId = r.parentDomainId) →
        parentOf (rows.map (updatedRow input)) tenantId a = parentOf rows tenantId a := by
    intro h
    unfold parentOf
    rw [get?_map_updatedRow]
    cases hget : get? rows tenantId a with
    | none => rfl
    | some r => exact h r hget
  cases hparent : input.parentDomainId with
  | none =>
    refine hkept fun r _ => ?_
    unfold updatedRow patchRow
    rw [hparent]
    split <;> rfl
  | some q =>
    by_cases hit : input.tenantId = tenantId ∧ a = input.id
    · obtain ⟨rfl, rfl⟩ := hit
      simp only [if_true, Function.update_self]
      unfold parentOf
      rw [get?_map_updatedRow, hrow]
      show (updatedRow input row).parentDomainId = q
      unfold updatedRow patchRow
      rw [if_pos (hfound row hrow), hparent]
      rfl
    · have hother : parentOf (rows.map (updatedRow input)) tenantId a = parentOf rows tenantId a := by
        refine hkept fun r hr => ?_
        unfold updatedRow
        rw [if_neg]
        rintro ⟨htenant, hid⟩
        obtain ⟨hof, ha⟩ := hfound r hr
        exact hit ⟨htenant.symm.trans hof, ha.symm.trans hid⟩
      rw [hother]
      by_cases htenant : input.tenantId = tenantId
      · simp only [if_pos htenant]
        rw [Function.update_of_ne fun heq => hit ⟨htenant, heq⟩]
      · simp only [if_neg htenant]

structure Hang where
  tenantId : Nat
  id : Nat
  parentId : Option Nat

def hungParents (tenantId : Nat) (parent : Nat → Option Nat) : Option Hang → Nat → Option Nat
  | none => parent
  | some h => if h.tenantId = tenantId then Function.update parent h.id h.parentId else parent

variable {ι : Type}

def hangs (s : Registry ι) : RegistryEvent ι → Option Hang
  | .next i drawn =>
      match s.caller i with
      | .inserting input key =>
          match insertDomain s.rows input key drawn with
          | .ok _ => some ⟨input.tenantId, drawn, input.parentDomainId⟩
          | .error _ => none
      | .writing input =>
          match updateDomain s.rows input with
          | .ok _ => input.parentDomainId.map fun q => ⟨input.tenantId, input.id, q⟩
          | .error _ => none
      | _ => none
  | _ => none

theorem insertDomain_eq_ok {input : CreateDomainInput} {key : String} {drawn : Nat} {r : DomainRow}
    (h : insertDomain rows input key drawn = .ok r) :
    (∀ r ∈ rows, r.id ≠ drawn) ∧
      r = ⟨drawn, input.tenantId, key, input.displayName, input.parentDomainId, true⟩ := by
  unfold insertDomain at h
  split at h
  · cases h
  · next hfree =>
    split at h
    · refine ⟨fun r hr hid => hfree (.inl ⟨r, hr, hid⟩), ?_⟩
      exact (Except.ok.inj h).symm
    · cases h

theorem updateDomain_eq_ok {r : DomainRow} (h : updateDomain rows input = .ok r) :
    ∃ row, get? rows input.tenantId input.id = some row := by
  unfold updateDomain at h
  split at h
  · cases h
  · next row hrow => exact ⟨row, hrow⟩

variable [DecidableEq ι]

theorem parentOf_step (normalizeKey : String → String) (s : Registry ι) (e : RegistryEvent ι) :
    parentOf (registryStep normalizeKey s e).rows tenantId =
      hungParents tenantId (parentOf s.rows tenantId) (hangs s e) := by
  cases e with
  | create i input =>
    simp only [registryStep, hangs, hungParents]
    split <;> rfl
  | update i input =>
    simp only [registryStep, hangs, hungParents]
    split <;> rfl
  | fail i =>
    simp only [registryStep, hangs, hungParents]
    split <;> rfl
  | next i drawn =>
    cases hcaller : s.caller i with
    | idle => simp only [registryStep, statement, hangs, hcaller, hungParents]
    | ended result => simp only [registryStep, statement, hangs, hcaller, hungParents]
    | readParent input key =>
      simp only [registryStep, statement, hangs, hcaller, hungParents]
      split
      · rfl
      · split <;> rfl
    | inserting input key =>
      cases hinsert : insertDomain s.rows input key drawn with
      | error e =>
        simp only [registryStep, statement, hangs, hcaller, hinsert]
        rfl
      | ok r =>
        obtain ⟨hfresh, rfl⟩ := insertDomain_eq_ok hinsert
        simp only [registryStep, statement, hangs, hcaller, hinsert]
        exact parentOf_insert hfresh
    | readCurrent input =>
      simp only [registryStep, statement, hangs, hcaller, hungParents]
      split <;> rfl
    | walking input candidate cursor hop =>
      simp only [registryStep, statement, hangs, hcaller]
      rfl
    | writing input =>
      cases hupdate : updateDomain s.rows input with
      | error e =>
        simp only [registryStep, statement, hangs, hcaller, hupdate]
        rfl
      | ok r =>
        obtain ⟨row, hrow⟩ := updateDomain_eq_ok hupdate
        simp only [registryStep, statement, hangs, hcaller, hupdate]
        rw [parentOf_update hrow]
        cases input.parentDomainId <;> rfl

/-! ## Every interleaving -/

def Roomy (s : Registry ι) (e : RegistryEvent ι) : Prop :=
  ∀ h, hangs s e = some h → Room (parentOf s.rows h.tenantId) maxParentWalk h.id h.parentId

theorem domainLaw_step_iff (normalizeKey : String → String) {s : Registry ι} {e : RegistryEvent ι}
    (hlaw : DomainLaw s.rows) : DomainLaw (registryStep normalizeKey s e).rows ↔ Roomy s e := by
  rw [domainLaw_iff] at hlaw ⊢
  simp only [parentOf_step]
  unfold Roomy
  cases hhangs : hangs s e with
  | none => exact iff_of_true hlaw nofun
  | some h =>
    unfold hungParents
    constructor
    · rintro hnew _ ⟨⟩
      have hits := hnew h.tenantId
      simp only [if_true] at hits
      exact (hlaw h.tenantId).update_iff.mp hits
    · intro hroom tenantId
      by_cases htenant : h.tenantId = tenantId
      · subst htenant
        simp only [if_true]
        exact (hlaw h.tenantId).update_iff.mpr (hroom h rfl)
      · simp only [if_neg htenant]
        exact hlaw tenantId

/-- The law holds in every state of exactly the runs whose writes leave room; the chain of the resolver
always ends. -/
theorem registryLaw_iff (normalizeKey : String → String) {rows : List DomainRow}
    (hlaw : DomainLaw rows) (events : List (RegistryEvent ι)) :
    ((∀ pre post, events = pre ++ post →
        DomainLaw (run (registryStep normalizeKey) (atRest rows) pre).rows) ↔
      Guarded (registryStep normalizeKey) Roomy (atRest rows) events) ∧
    ∀ readParent domain,
      (domainChain readParent domain).length ≤ 11 ∧ (domainChain readParent domain).Nodup := by
  constructor
  · refine invariant_iff_guarded (I := fun s : Registry ι => DomainLaw s.rows) (P := fun _ _ => True)
      (fun s e h _ => domainLaw_step_iff normalizeKey h) hlaw ?_
    exact guarded_iff.mpr fun _ _ _ _ => trivial
  · intro readParent domain
    exact chainFrom_ends readParent 10 (List.nodup_singleton domain) domain

end

/-! ## Roots -/

theorem parentOf_of_roots (h : ∀ r ∈ rows, r.parentDomainId = none)
    (tenantId : Nat) : parentOf rows tenantId = fun _ => none := by
  funext a
  unfold parentOf
  cases hget : get? rows tenantId a with
  | none => rfl
  | some r => exact h r (List.mem_of_find?_eq_some hget)

theorem domainLaw_of_roots (h : ∀ r ∈ rows, r.parentDomainId = none) : DomainLaw rows := by
  refine domainLaw_iff.mpr fun tenantId a => ?_
  rw [parentOf_of_roots h]
  exact up_none 19

theorem room_of_roots (h : ∀ r ∈ rows, r.parentDomainId = none)
    (tenantId : Nat) {x q : Nat} (hne : q ≠ x) :
    Room (parentOf rows tenantId) maxParentWalk x (some q) := by
  rw [parentOf_of_roots h]
  have hends : ∀ a n, up (fun _ : Nat => (none : Option Nat)) (n + 1) (some a) = none :=
    fun _ n => up_none n
  refine ⟨fun e => ?_, fun a d hd => ?_⟩
  · cases e with
    | zero => exact fun heq => hne (Option.some.inj heq)
    | succ e =>
      rw [hends]
      exact nofun
  · cases d with
    | zero => rfl
    | succ d =>
      rw [hends] at hd
      cases hd

theorem registryLaw_one_update : DomainLaw (run (registryStep id)
    (atRest [⟨1, 7, "fm", "FM", none, true⟩, ⟨2, 7, "hvac", "HVAC", none, true⟩])
    [.update () ⟨7, 2, none, some (some 1), none⟩, .next () 0, .next () 0, .next () 0]).rows := by
  have hroots : ∀ r ∈ [(⟨1, 7, "fm", "FM", none, true⟩ : DomainRow), ⟨2, 7, "hvac", "HVAC", none, true⟩],
      r.parentDomainId = none := by
    decide
  have hguarded : Guarded (registryStep id) Roomy
      (atRest [⟨1, 7, "fm", "FM", none, true⟩, ⟨2, 7, "hvac", "HVAC", none, true⟩])
      [.update () ⟨7, 2, none, some (some 1), none⟩, .next () 0, .next () 0, .next () 0] := by
    refine ⟨nofun, nofun, nofun, ?_, trivial⟩
    rintro h ⟨⟩
    exact room_of_roots hroots 7 (x := 2) (q := 1) (by decide)
  exact (registryLaw_iff id (domainLaw_of_roots hroots) _).1.mpr hguarded _ []
    (List.append_nil _).symm

/-- Two callers hang two roots below each other: both have walked before either writes. -/
theorem cross_parenting : ¬∀ (rows : List DomainRow) (events : List (RegistryEvent Bool)),
    DomainLaw rows → DomainLaw (run (registryStep id) (atRest rows) events).rows := by
  intro h
  have hlaw := h [⟨1, 7, "fm", "FM", none, true⟩, ⟨2, 7, "hvac", "HVAC", none, true⟩]
    [.update false ⟨7, 1, none, some (some 2), none⟩, .update true ⟨7, 2, none, some (some 1), none⟩,
      .next false 0, .next true 0, .next false 0, .next true 0, .next false 0, .next true 0]
    (domainLaw_of_roots (by decide))
  refine hlaw.acyclic 7 1 1 ?_
  decide +kernel

end Prequest.DomainRegistry
