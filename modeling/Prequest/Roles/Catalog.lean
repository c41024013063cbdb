import Prequest.Lib.JsValue
import Prequest.Lib.Segments
import Prequest.Lib.Sorting
import Prequest.Roles.Permission

/-!
# The catalog of permissions

The shared package keeps the catalog of modules with their actions. `expandGranted`
lists the keys of the catalog that a list of grants resolves to, and
`validatePermission` says whether a string may be stored as a grant. Both normalise
what they are given. The validation asks with the operator `in` whether a segment is a
key of the catalog, which is true as well of the properties that every object inherits.

* `permissionLaw_iff`: it accepts the keys and wildcards of the catalog, and returns, exactly when no
  inherited property is met.
-/

namespace Prequest.Roles

open Prequest.Lib Prequest.Lib.JsValue

/-! ## The catalog -/

/-- A module of the catalog with the keys of its tables. -/
structure ModuleMeta where
  name : String
  actions : List String
  overrides : Option (List String) := none
  deriving DecidableEq, Repr

/-- `PERMISSION_CATALOG`. -/
def permissionCatalog : List ModuleMeta :=
  [
    { name := "tickets"
      actions := ["read", "create", "update", "assign", "change_type", "change_priority",
         "change_location", "watch", "comment", "post_private_note", "approve", "escalate",
         "merge", "bulk_edit", "close", "reopen", "delete"]
      overrides := some ["read_all", "write_all"] },
    { name := "people"
      actions := ["read", "create", "update", "invite", "merge", "deactivate", "import", "export",
         "delete"] },
    { name := "users"
      actions := ["read", "create", "update", "suspend", "reset_password", "impersonate", "delete"] },
    { name := "roles"
      actions := ["read", "create", "update", "duplicate", "assign", "export", "delete"] },
    { name := "teams"
      actions := ["read", "create", "update", "manage_members", "change_leader", "delete"] },
    { name := "request_types"
      actions := ["read", "use", "create", "update", "publish", "duplicate", "archive", "reorder",
         "delete"] },
    { name := "routing"
      actions := ["read", "create", "update", "simulate", "publish", "rollback", "delete"] },
    { name := "service_catalog"
      actions := ["read", "create", "update", "publish", "feature", "archive", "delete"] },
    { name := "organisations"
      actions := ["read", "create", "update", "manage_grants", "manage_memberships", "import", "delete"] },
    { name := "spaces"
      actions := ["read", "create", "update", "manage_grants", "import", "archive", "delete"] },
    { name := "assets"
      actions := ["read", "create", "update", "transfer", "check_in", "check_out", "audit", "import",
         "export", "retire", "delete"] },
    { name := "criteria_sets"
      actions := ["read", "create", "update", "duplicate", "preview", "delete"] },
    { name := "workflows"
      actions := ["read", "create", "update", "publish", "duplicate", "test", "execute", "rollback",
         "archive", "delete"] },
    { name := "sla"
      actions := ["read", "create", "update", "duplicate", "pause", "resume", "override", "delete"] },
    { name := "vendors"
      actions := ["read", "create", "update", "manage_contacts", "deactivate", "import", "admin",
         "delete"] },
    { name := "rooms"
      actions := ["read", "admin"]
      overrides := some ["read_all"] },
    { name := "floor_plans"
      actions := ["admin"] },
    { name := "reports"
      actions := ["read", "create", "update", "share", "schedule", "subscribe", "export", "delete"] },
    { name := "notifications"
      actions := ["read", "update", "manage_templates", "send_test"] },
    { name := "tags"
      actions := ["read", "create", "update", "merge", "delete"] },
    { name := "settings"
      actions := ["read", "update", "export", "billing"] },
    { name := "visitors"
      actions := ["invite", "reception", "configure"]
      overrides := some ["read_all"] },
    { name := "maintenance_plans"
      actions := ["read", "create", "update", "delete"] },
    { name := "gdpr"
      actions := ["configure", "fulfill_request", "audit_reads", "place_legal_hold"] },
    { name := "business_hours"
      actions := ["read", "create", "update"] },
    { name := "catalog_menus"
      actions := ["read", "create", "update", "delete"] },
    { name := "delegations"
      actions := ["read", "create", "update"] },
    { name := "webhooks"
      actions := ["read", "create", "update", "rotate_key", "test", "delete"] } ]

def ModuleMeta.allActions (mod : ModuleMeta) : List String := mod.actions ++ mod.overrides.getD []

def permissionKey (resource action : String) : String := resource ++ "." ++ action

/-! ## Validation -/

/-- The characters of a segment: `[*a-z0-9_]`. -/
def wordChar (c : Char) : Bool := c == '*' || c.isLower || c.isDigit || c == '_'

/-- `/^[*a-z0-9_]+$/`. -/
def isWord (s : String) : Bool := !s.toList.isEmpty && s.toList.all wordChar

def isWellFormedPermission (key : String) : Bool :=
  if key = "" then false
  else
    match splitDot key with
    | [resource, action] =>
        if resource = "" ∨ action = "" then false else isWord resource && isWord action
    | _ => false

/-- `key in table`, for an object with these keys of its own. -/
def inTable (keys : List String) (key : String) : Bool := keys.contains key || isInherited key

def isKnownResource (resource : String) : Bool :=
  if resource = "*" then true else inTable (permissionCatalog.map ModuleMeta.name) resource

/-- `action in mod.actions`, or in the overrides. -/
def ModuleMeta.knows (mod : ModuleMeta) (action : String) : Bool :=
  inTable mod.actions action || mod.overrides.any fun keys => inTable keys action

/-- `in` with something that is no object on its right. -/
inductive TypeError where
  | inOfUndefined
  deriving DecidableEq, Repr

def isKnownAction (resource action : String) : Except TypeError Bool :=
  if action = "*" then .ok true
  else if resource = "*" then .ok (permissionCatalog.any fun mod => mod.knows action)
  else
    match permissionCatalog.find? fun mod => mod.name == resource with
    | some mod => .ok (mod.knows action)
    -- An inherited property is truthy, and has no table of actions.
    | none => if isInherited resource then .error .inOfUndefined else .ok false

inductive Validation where
  | ok
  | rejected (reason : String)
  deriving DecidableEq, Repr

def validatePermission (l : Lowering) (key : String) : Except TypeError Validation :=
  let norm := normalisePermission l key
  if !isWellFormedPermission norm then
    .ok (.rejected ("Malformed permission \"" ++ key ++ "\""))
  else
    let resource := (splitDot norm).getD 0 ""
    let action := (splitDot norm).getD 1 ""
    if !isKnownResource resource then
      .ok (.rejected ("Unknown module \"" ++ resource ++ "\""))
    else do
      let known ← isKnownAction resource action
      if !known then
        pure (.rejected
          ("Unknown action \"" ++ action ++ "\" for module \"" ++ resource ++ "\""))
      else
        pure .ok

/-! ## Expansion -/

def expandModule (norm : List String) (mod : ModuleMeta) : List String :=
  let resourceWildcard := norm.contains "*.*" || norm.contains (mod.name ++ ".*")
  mod.allActions.filterMap fun action =>
    let key := permissionKey mod.name action
    if resourceWildcard || norm.contains key || norm.contains ("*." ++ action) then some key
    else none

def expandGranted (l : Lowering) (granted : List String) : List String :=
  (permissionCatalog.flatMap (expandModule (granted.map (normalisePermission l)))).eraseDups
    |>.insertionSort (· ≤ ·)

/-! ## The law -/

/-- Lower-casing that leaves the characters of a segment alone. -/
structure WordLowering extends Lowering where
  settled_word : ∀ c, wordChar c = true → settled c = true

def catalogKeys : List String :=
  permissionCatalog.flatMap fun mod => mod.allActions.map (permissionKey mod.name)

/-- A key of the catalog, or a wildcard over a resource or an action of it. -/
def IsPermission (s : String) : Prop :=
  s ∈ catalogKeys ∨ s = "*.*" ∨ (∃ mod ∈ permissionCatalog, s = permissionKey mod.name "*") ∨
    ∃ mod ∈ permissionCatalog, ∃ action ∈ mod.allActions, s = permissionKey "*" action

structure PermissionLaw (l : Lowering) (granted : List String) (key : String) : Prop where
  expands : ∀ k ∈ catalogKeys, k ∈ expandGranted l granted ↔ matchesGranted l granted k = true
  returns : ∃ verdict, validatePermission l key = .ok verdict
  accepts : validatePermission l key = .ok .ok ↔ IsPermission (normalisePermission l key)

/-- Two words, of which the first is an inherited property, or the second one and the first a
resource of the catalog or the wildcard. -/
def MeetsInherited (s : String) : Prop :=
  ∃ resource action, isWord resource = true ∧ isWord action = true ∧
    s = permissionKey resource action ∧ (isInherited resource = true ∨
      isInherited action = true ∧ (resource = "*" ∨ resource ∈ permissionCatalog.map ModuleMeta.name))

/-! ## Keys and their segments -/

variable {s : String}

theorem isWord_iff : isWord s = true ↔ s ≠ "" ∧ ∀ c ∈ s.toList, wordChar c = true := by
  rw [isWord, Bool.and_eq_true, List.all_eq_true, Bool.not_eq_true', List.isEmpty_eq_false_iff, Ne,
    Ne, String.toList_eq_nil_iff]

theorem dot_notMem_of_word (h : isWord s = true) : '.' ∉ s.toList := by
  intro hmem
  exact absurd ((isWord_iff.mp h).2 '.' hmem) (by decide)

theorem catalog_words : ∀ mod ∈ permissionCatalog,
    (isWord mod.name = true ∧ isInherited mod.name = false ∧ mod.name ≠ "*") ∧
      ∀ action ∈ mod.allActions,
        isWord action = true ∧ isInherited action = false ∧ action ≠ "*" := by
  decide +kernel

theorem catalog_names_nodup : (permissionCatalog.map ModuleMeta.name).Nodup := by decide

theorem isWord_star : isWord "*" = true := rfl

theorem star_not_inherited : isInherited "*" = false := rfl

section

variable {resource action resource' action' s : String}

theorem splitDot_permissionKey (hr : isWord resource = true) (ha : isWord action = true) :
    splitDot (permissionKey resource action) = [resource, action] := by
  have hsplit : segments '.' (permissionKey resource action) =
      segments '.' resource ++ [action] :=
    segments_append_of_notMem resource (dot_notMem_of_word ha)
  rw [segments_of_notMem (dot_notMem_of_word hr)] at hsplit
  exact hsplit

theorem eq_permissionKey_of_splitDot (h : splitDot s = [resource, action]) :
    s = permissionKey resource action := by
  have hjoin : ['.'].intercalate (s.toList.splitOn '.') = s.toList := List.intercalate_splitOn '.'
  have hsplit : s.toList.splitOn '.' = [resource.toList, action.toList] := by
    have hlists := congrArg (List.map String.toList) h
    rw [splitDot, List.map_map] at hlists
    have hid : String.toList ∘ String.ofList = id := by
      funext cs
      exact String.toList_ofList
    rwa [hid, List.map_id] at hlists
  rw [hsplit] at hjoin
  have hlist : s.toList = (permissionKey resource action).toList := by
    rw [← hjoin, permissionKey, String.toList_append, String.toList_append]
    simp [List.intercalate]
  exact String.toList_injective hlist

theorem permissionKey_inj (hr : isWord resource = true) (ha : isWord action = true)
    (hr' : isWord resource' = true) (ha' : isWord action' = true) :
    permissionKey resource action = permissionKey resource' action' ↔
      resource = resource' ∧ action = action' := by
  constructor
  · intro h
    have hsplit := congrArg splitDot h
    rw [splitDot_permissionKey hr ha, splitDot_permissionKey hr' ha'] at hsplit
    simpa using hsplit
  · rintro ⟨rfl, rfl⟩
    rfl

theorem isWellFormedPermission_iff :
    isWellFormedPermission s = true ↔ ∃ resource action, isWord resource = true ∧
      isWord action = true ∧ s = permissionKey resource action := by
  constructor
  · intro h
    unfold isWellFormedPermission at h
    split at h
    · cases h
    · split at h
      · rename_i resource action hsplit
        split at h
        · cases h
        · obtain ⟨hr, ha⟩ := Bool.and_eq_true_iff.mp h
          exact ⟨resource, action, hr, ha, eq_permissionKey_of_splitDot hsplit⟩
      · cases h
  · rintro ⟨resource, action, hr, ha, rfl⟩
    have hne : permissionKey resource action ≠ "" := by
      intro hempty
      have hsplit := splitDot_permissionKey hr ha
      have hone : splitDot "" = [""] := rfl
      rw [hempty, hone] at hsplit
      cases hsplit
    have hwords : ¬(resource = "" ∨ action = "") := by
      rintro (hempty | hempty)
      · exact (isWord_iff.mp hr).1 hempty
      · exact (isWord_iff.mp ha).1 hempty
    simp only [isWellFormedPermission, if_neg hne, splitDot_permissionKey hr ha, if_neg hwords, hr, ha,
      Bool.and_self]

end

/-! ## What the validation does with two words -/

theorem inTable_iff {keys : List String} {key : String} :
    inTable keys key = true ↔ key ∈ keys ∨ isInherited key = true := by
  rw [inTable, Bool.or_eq_true, List.contains_iff_mem]

variable {mod : ModuleMeta}

theorem knows_iff {action : String} :
    mod.knows action = true ↔ action ∈ mod.allActions ∨ isInherited action = true := by
  unfold ModuleMeta.knows ModuleMeta.allActions
  cases mod.overrides with
  | none => simp [inTable_iff]
  | some keys =>
    rw [Bool.or_eq_true, Option.any_some, inTable_iff, inTable_iff, Option.getD_some,
      List.mem_append]
    tauto

theorem isKnownResource_iff {resource : String} :
    isKnownResource resource = true ↔ resource = "*" ∨
      resource ∈ permissionCatalog.map ModuleMeta.name ∨ isInherited resource = true := by
  unfold isKnownResource
  by_cases hstar : resource = "*"
  · simp [hstar]
  · rw [if_neg hstar, inTable_iff]
    exact (or_iff_right hstar).symm

theorem isKnownAction_star (action : String) :
    isKnownAction "*" action =
      .ok (action == "*" || permissionCatalog.any fun mod => mod.knows action) := by
  unfold isKnownAction
  by_cases haction : action = "*"
  · simp [haction]
  · simp [haction]

theorem find?_name (hmod : mod ∈ permissionCatalog) :
    (permissionCatalog.find? fun other => other.name == mod.name) = some mod := by
  cases hfind : permissionCatalog.find? fun other => other.name == mod.name with
  | none => exact absurd BEq.rfl (List.find?_eq_none.mp hfind mod hmod)
  | some other =>
    have hother := List.mem_of_find?_eq_some hfind
    have hname := List.find?_some hfind
    rw [List.inj_on_of_nodup_map catalog_names_nodup hother hmod (beq_iff_eq.mp hname)]

theorem isKnownAction_module (hmod : mod ∈ permissionCatalog)
    (action : String) : isKnownAction mod.name action = .ok (action == "*" || mod.knows action) := by
  have hstar : mod.name ≠ "*" := (catalog_words mod hmod).1.2.2
  unfold isKnownAction
  by_cases haction : action = "*"
  · simp [haction]
  · rw [if_neg haction, if_neg hstar, find?_name hmod, beq_false_of_ne haction, Bool.false_or]

theorem isKnownAction_inherited {resource : String} (h : isInherited resource = true)
    (action : String) :
    isKnownAction resource action =
      if action = "*" then .ok true else .error .inOfUndefined := by
  have hstar : resource ≠ "*" := by
    rintro rfl
    rw [star_not_inherited] at h
    cases h
  have hfind : (permissionCatalog.find? fun mod => mod.name == resource) = none := by
    refine List.find?_eq_none.mpr fun mod hmod hname => ?_
    rw [← beq_iff_eq.mp hname, (catalog_words mod hmod).1.2.1] at h
    cases h
  unfold isKnownAction
  rw [if_neg hstar, hfind]
  simp only [h, if_true]

section

variable {l : Lowering} {key resource action : String}

theorem accepts_known_iff {known : Bool} {reason : String} :
    ((.ok known : Except TypeError Bool).map fun known =>
      if known then Validation.ok else .rejected reason) = .ok .ok ↔ known = true := by
  cases known <;> simp [Except.map]

theorem validatePermission_of_word (hr : isWord resource = true) (ha : isWord action = true)
    (hnorm : normalisePermission l key = permissionKey resource action) :
    validatePermission l key =
      if isKnownResource resource then
        (isKnownAction resource action).map fun known =>
          if known then .ok
          else .rejected ("Unknown action \"" ++ action ++ "\" for module \"" ++ resource ++ "\"")
      else .ok (.rejected ("Unknown module \"" ++ resource ++ "\"")) := by
  have hformed : isWellFormedPermission (permissionKey resource action) = true :=
    isWellFormedPermission_iff.mpr ⟨resource, action, hr, ha, rfl⟩
  simp only [validatePermission, hnorm, hformed, splitDot_permissionKey hr ha, Bool.not_true,
    Bool.false_eq_true, if_false, List.getD_cons_zero, List.getD_cons_succ]
  cases isKnownResource resource with
  | false => rfl
  | true =>
    cases isKnownAction resource action with
    | error e => rfl
    | ok known => cases known <;> rfl

theorem validatePermission_of_malformed
    (h : isWellFormedPermission (normalisePermission l key) = false) :
    validatePermission l key = .ok (.rejected ("Malformed permission \"" ++ key ++ "\"")) := by
  simp [validatePermission, h]

end

/-! ## The keys that are listed -/

section

variable {l : WordLowering}

theorem normal_of_word (h : isWord s = true) : Normal l.toLowering s := by
  intro c hc
  have hword := (isWord_iff.mp h).2 c hc
  refine ⟨l.settled_word c hword, ?_⟩
  rintro rfl
  exact absurd hword (by decide)

theorem normal_permissionKey {resource action : String} (hr : isWord resource = true)
    (ha : isWord action = true) : Normal l.toLowering (permissionKey resource action) := by
  refine normal_append (normal_append (normal_of_word hr) (normal_wildcard ?_)) (normal_of_word ha)
  simp

variable {k : String}

theorem mem_catalogKeys : k ∈ catalogKeys ↔ ∃ mod ∈ permissionCatalog, ∃ action ∈ mod.allActions,
      permissionKey mod.name action = k := by
  simp [catalogKeys, List.mem_flatMap, List.mem_map]

theorem mem_expandGranted {granted : List String} : k ∈ expandGranted l.toLowering granted ↔
      ∃ mod ∈ permissionCatalog, ∃ action ∈ mod.allActions, permissionKey mod.name action = k ∧
        ∃ g ∈ granted, normalisePermission l.toLowering g ∈
          coveringKeys (permissionKey mod.name action) mod.name action := by
  unfold expandGranted
  rw [List.mem_insertionSort, List.mem_eraseDups, List.mem_flatMap]
  refine exists_congr fun mod => and_congr_right fun _ => ?_
  simp only [expandModule, List.mem_filterMap]
  refine exists_congr fun action => and_congr_right fun _ => ?_
  rw [Option.ite_none_right_eq_some, and_comm, Option.some.injEq]
  refine and_congr_right fun _ => ?_
  simp only [Bool.or_eq_true, List.contains_iff_mem, List.mem_map, coveringKeys, List.mem_cons,
    List.not_mem_nil, or_false]
  constructor
  · rintro (((⟨g, hg, h⟩ | ⟨g, hg, h⟩) | ⟨g, hg, h⟩) | ⟨g, hg, h⟩)
    all_goals exact ⟨g, hg, by simp [h]⟩
  · rintro ⟨g, hg, h | h | h | h⟩
    · exact Or.inl (Or.inr ⟨g, hg, h⟩)
    · exact Or.inl (Or.inl (Or.inr ⟨g, hg, h⟩))
    · exact Or.inr ⟨g, hg, h⟩
    · exact Or.inl (Or.inl (Or.inl ⟨g, hg, h⟩))

theorem mem_expandGranted_iff (granted : List String) (hk : k ∈ catalogKeys) :
    k ∈ expandGranted l.toLowering granted ↔ matchesGranted l.toLowering granted k = true := by
  obtain ⟨mod, hmod, action, haction, rfl⟩ := mem_catalogKeys.mp hk
  have hr := (catalog_words mod hmod).1.1
  have ha := ((catalog_words mod hmod).2 action haction).1
  have hnorm : normalisePermission l.toLowering (permissionKey mod.name action) =
      permissionKey mod.name action := normalisePermission_of_normal (normal_permissionKey hr ha)
  have hsplit : splitDot (normalisePermission l.toLowering (permissionKey mod.name action)) =
      [mod.name, action] := by
    rw [hnorm, splitDot_permissionKey hr ha]
  rw [mem_expandGranted, matchesGranted_of_split hsplit, hnorm]
  constructor
  · rintro ⟨mod', hmod', action', haction', heq, hcovered⟩
    have hr' := (catalog_words mod' hmod').1.1
    have ha' := ((catalog_words mod' hmod').2 action' haction').1
    obtain ⟨hname, rfl⟩ := (permissionKey_inj hr' ha' hr ha).mp heq
    rw [hname] at hcovered
    exact ⟨(isWord_iff.mp hr).1, (isWord_iff.mp ha).1, hcovered⟩
  · rintro ⟨_, _, hcovered⟩
    exact ⟨mod, hmod, action, haction, rfl, hcovered⟩

end

/-! ## The strings that are accepted -/

section

variable {resource action s : String}

theorem isPermission_of_word (hr : isWord resource = true) (ha : isWord action = true) :
    IsPermission (permissionKey resource action) ↔
      (resource = "*" ∧ (action = "*" ∨ ∃ mod ∈ permissionCatalog, action ∈ mod.allActions)) ∨
        ∃ mod ∈ permissionCatalog, mod.name = resource ∧
          (action = "*" ∨ action ∈ mod.allActions) := by
  have hkey : ∀ {resource' action' : String}, isWord resource' = true → isWord action' = true →
      (permissionKey resource action = permissionKey resource' action' ↔
        resource = resource' ∧ action = action') := fun hr' ha' => permissionKey_inj hr ha hr' ha'
  have hall : permissionKey "*" "*" = "*.*" := rfl
  unfold IsPermission
  rw [mem_catalogKeys, ← hall, hkey isWord_star isWord_star]
  constructor
  · rintro (⟨mod, hmod, action', haction, heq⟩ | ⟨hstar, haction⟩ | ⟨mod, hmod, heq⟩ |
      ⟨mod, hmod, action', haction, heq⟩)
    · obtain ⟨hname, rfl⟩ := (hkey (catalog_words mod hmod).1.1
        ((catalog_words mod hmod).2 action' haction).1).mp heq.symm
      exact Or.inr ⟨mod, hmod, hname.symm, Or.inr haction⟩
    · exact Or.inl ⟨hstar, Or.inl haction⟩
    · obtain ⟨hname, haction⟩ := (hkey (catalog_words mod hmod).1.1 isWord_star).mp heq
      exact Or.inr ⟨mod, hmod, hname.symm, Or.inl haction⟩
    · obtain ⟨hstar, rfl⟩ := (hkey isWord_star ((catalog_words mod hmod).2 action' haction).1).mp heq
      exact Or.inl ⟨hstar, Or.inr ⟨mod, hmod, haction⟩⟩
  · rintro (⟨rfl, rfl | ⟨mod, hmod, haction⟩⟩ | ⟨mod, hmod, rfl, rfl | haction⟩)
    · exact Or.inr (Or.inl ⟨rfl, rfl⟩)
    · exact Or.inr (Or.inr (Or.inr ⟨mod, hmod, action, haction, rfl⟩))
    · exact Or.inr (Or.inr (Or.inl ⟨mod, hmod, rfl⟩))
    · exact Or.inl ⟨mod, hmod, action, haction, rfl⟩

theorem isWellFormed_of_isPermission (h : IsPermission s) : isWellFormedPermission s = true := by
  rw [isWellFormedPermission_iff]
  rcases h with hkey | rfl | ⟨mod, hmod, rfl⟩ | ⟨mod, hmod, action, haction, rfl⟩
  · obtain ⟨mod, hmod, action, haction, rfl⟩ := mem_catalogKeys.mp hkey
    exact ⟨_, _, (catalog_words mod hmod).1.1, ((catalog_words mod hmod).2 action haction).1, rfl⟩
  · exact ⟨"*", "*", isWord_star, isWord_star, rfl⟩
  · exact ⟨_, _, (catalog_words mod hmod).1.1, isWord_star, rfl⟩
  · exact ⟨_, _, isWord_star, ((catalog_words mod hmod).2 action haction).1, rfl⟩

end

section

variable {l : Lowering} {key resource action : String}

theorem accepts_of_word (hr : isWord resource = true) (ha : isWord action = true)
    (hnorm : normalisePermission l key = permissionKey resource action)
    (hfree : ¬MeetsInherited (normalisePermission l key)) :
    (∃ verdict, validatePermission l key = .ok verdict) ∧
      (validatePermission l key = .ok .ok ↔ IsPermission (normalisePermission l key)) := by
  have hparts : ¬(isInherited resource = true ∨ isInherited action = true ∧
      (resource = "*" ∨ resource ∈ permissionCatalog.map ModuleMeta.name)) :=
    fun h => hfree ⟨resource, action, hr, ha, hnorm, h⟩
  obtain ⟨hresource, haction⟩ := not_or.mp hparts
  rw [hnorm, isPermission_of_word hr ha, validatePermission_of_word hr ha hnorm]
  by_cases hstar : resource = "*"
  · have hother : isInherited action ≠ true := fun h => haction ⟨h, Or.inl hstar⟩
    have hnone : ¬∃ mod ∈ permissionCatalog, mod.name = "*" ∧
        (action = "*" ∨ action ∈ mod.allActions) := by
      rintro ⟨mod, hmod, hname, _⟩
      exact (catalog_words mod hmod).1.2.2 hname
    rw [hstar, if_pos (isKnownResource_iff.mpr (Or.inl rfl)), isKnownAction_star]
    refine ⟨⟨_, rfl⟩, ?_⟩
    rw [or_iff_left hnone, accepts_known_iff, Bool.or_eq_true, beq_iff_eq, List.any_eq_true]
    simp only [knows_iff, hother, Bool.false_eq_true, or_false, true_and]
  · by_cases hname : resource ∈ permissionCatalog.map ModuleMeta.name
    · obtain ⟨mod, hmod, rfl⟩ := List.mem_map.mp hname
      have hother : isInherited action ≠ true := fun h => haction ⟨h, Or.inr hname⟩
      have honly : (∃ mod' ∈ permissionCatalog, mod'.name = mod.name ∧
          (action = "*" ∨ action ∈ mod'.allActions)) ↔ action = "*" ∨ action ∈ mod.allActions := by
        constructor
        · rintro ⟨mod', hmod', heq, h⟩
          rwa [List.inj_on_of_nodup_map catalog_names_nodup hmod' hmod heq] at h
        · exact fun h => ⟨mod, hmod, rfl, h⟩
      rw [if_pos (isKnownResource_iff.mpr (Or.inr (Or.inl hname))), isKnownAction_module hmod]
      refine ⟨⟨_, rfl⟩, ?_⟩
      rw [honly, or_iff_right fun h => hstar h.1, accepts_known_iff, Bool.or_eq_true, beq_iff_eq,
        knows_iff, or_iff_left hother]
    · have hunknown : ¬isKnownResource resource = true := by
        rw [isKnownResource_iff]
        tauto
      rw [if_neg hunknown]
      refine ⟨⟨_, rfl⟩, iff_of_false (by simp) ?_⟩
      rintro (⟨h, _⟩ | ⟨mod, hmod, rfl, _⟩)
      · exact hstar h
      · exact hname (List.mem_map_of_mem hmod)

theorem throws_or_accepts_of_meetsInherited (h : MeetsInherited (normalisePermission l key)) :
    (¬∃ verdict, validatePermission l key = .ok verdict) ∨
      validatePermission l key = .ok .ok ∧ ¬IsPermission (normalisePermission l key) := by
  obtain ⟨resource, action, hr, ha, hnorm, hinherited⟩ := h
  have hnames : ∀ mod ∈ permissionCatalog, isInherited mod.name ≠ true := by
    intro mod hmod h
    rw [(catalog_words mod hmod).1.2.1] at h
    cases h
  have hactions : ∀ mod ∈ permissionCatalog, action ∈ mod.allActions → isInherited action ≠ true := by
    intro mod hmod hmem h
    rw [((catalog_words mod hmod).2 action hmem).2.1] at h
    cases h
  have hwild : ∀ {word : String}, isInherited word = true → word ≠ "*" := by
    rintro _ h rfl
    rw [star_not_inherited] at h
    cases h
  rw [hnorm, isPermission_of_word hr ha, validatePermission_of_word hr ha hnorm]
  rcases hinherited with hresource | ⟨haction, hstar | hname⟩
  · rw [if_pos (isKnownResource_iff.mpr (Or.inr (Or.inr hresource))),
      isKnownAction_inherited hresource]
    by_cases hall : action = "*"
    · refine Or.inr ⟨by simp [hall, Except.map], ?_⟩
      rintro (⟨h, _⟩ | ⟨mod, hmod, rfl, _⟩)
      · exact hwild hresource h
      · exact hnames mod hmod hresource
    · refine Or.inl ?_
      rw [if_neg hall]
      rintro ⟨verdict, h⟩
      cases h
  · refine Or.inr ⟨?_, ?_⟩
    · rw [hstar, if_pos (isKnownResource_iff.mpr (Or.inl rfl)), isKnownAction_star]
      have hknows : (permissionCatalog.any fun mod => mod.knows action) = true := by
        refine List.any_eq_true.mpr ⟨_, List.mem_cons_self, knows_iff.mpr (Or.inr haction)⟩
      simp [Except.map, hknows]
    · rintro (⟨_, h | ⟨mod, hmod, h⟩⟩ | ⟨mod, hmod, hname, _⟩)
      · exact hwild haction h
      · exact hactions mod hmod h haction
      · exact (catalog_words mod hmod).1.2.2 (hname.trans hstar)
  · refine Or.inr ⟨?_, ?_⟩
    · rw [if_pos (isKnownResource_iff.mpr (Or.inr (Or.inl hname)))]
      obtain ⟨mod, hmod, rfl⟩ := List.mem_map.mp hname
      have hknows : mod.knows action = true := knows_iff.mpr (Or.inr haction)
      simp [isKnownAction_module hmod, Except.map, hknows]
    · rintro (⟨rfl, _⟩ | ⟨mod, hmod, _, h | h⟩)
      · obtain ⟨mod, hmod, hstar⟩ := List.mem_map.mp hname
        exact (catalog_words mod hmod).1.2.2 hstar
      · exact hwild haction h
      · exact hactions mod hmod h haction

end

/-- The keys that a list of grants resolves to are those that it grants; a string is accepted exactly
when it is a permission of the catalog, and the validation returns, as long as it meets no inherited
property. -/
theorem permissionLaw_iff (l : WordLowering) (granted : List String) (key : String) :
    PermissionLaw l.toLowering granted key ↔
      ¬MeetsInherited (normalisePermission l.toLowering key) := by
  constructor
  · intro hlaw hmeets
    rcases throws_or_accepts_of_meetsInherited hmeets with hthrows | ⟨haccepts, hnone⟩
    · exact hthrows hlaw.returns
    · exact hnone (hlaw.accepts.mp haccepts)
  · intro hfree
    have hkey : (∃ verdict, validatePermission l.toLowering key = .ok verdict) ∧
        (validatePermission l.toLowering key = .ok .ok ↔
          IsPermission (normalisePermission l.toLowering key)) := by
      by_cases hformed : isWellFormedPermission (normalisePermission l.toLowering key) = true
      · obtain ⟨resource, action, hr, ha, hnorm⟩ := isWellFormedPermission_iff.mp hformed
        exact accepts_of_word hr ha hnorm hfree
      · rw [validatePermission_of_malformed (Bool.eq_false_iff.mpr hformed)]
        exact ⟨⟨_, rfl⟩, iff_of_false (by simp) fun h => hformed (isWellFormed_of_isPermission h)⟩
    exact ⟨fun k hk => mem_expandGranted_iff granted hk, hkey.1, hkey.2⟩

/-! ## A segment that is inherited -/

theorem lowerLetter_of_wordChar {c : Char} (h : wordChar c = true) : lowerLetter c = c := by
  rcases lowerLetter_cases c with heq | hmem
  · exact heq
  · have hcapitals : ∀ p ∈ letters, wordChar p.1 = false := by decide
    rw [hcapitals _ hmem] at h
    cases h

def asciiWordLowering : WordLowering where
  toLowering := asciiLowering
  settled_word _ h := beq_iff_eq.mpr (lowerLetter_of_wordChar h)

/-- The validation throws for a module that is named like an inherited property. -/
theorem constructorRead_throws :
    ¬∀ (l : WordLowering) (granted : List String) (key : String),
      PermissionLaw l.toLowering granted key := by
  intro hlaw
  obtain ⟨verdict, hverdict⟩ := (hlaw asciiWordLowering [] "constructor.read").returns
  have hthrows : validatePermission asciiWordLowering.toLowering "constructor.read" =
      .error .inOfUndefined := by decide +kernel
  rw [hthrows] at hverdict
  cases hverdict

end Prequest.Roles
