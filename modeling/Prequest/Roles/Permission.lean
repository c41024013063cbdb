import Prequest.Lib.Table

/-!
# Permissions of roles

A role carries a list of permission strings such as `tickets.read`, `tickets.*`,
`*.read` and `*.*`. Two functions say whether a list grants a request: `matches` of
the shared package, for the user interface, and `user_has_permission` of the database,
for everything else. Both look for four strings in the list. The first takes the
first two segments of the request however many there are, and normalises what is
stored; the second wants two segments, and takes the list as it is.

* `CoveredAlike`, `permissionsAgree_iff`: they agree exactly under the condition.
-/

namespace Prequest.Roles

open Prequest.Lib

/-! ## Texts -/

/-- `replace(/:/g, '.')`. -/
def colonToDot (s : String) : String :=
  String.ofList (s.toList.map fun c => if c = ':' then '.' else c)

/-- `split('.')`. -/
def splitDot (s : String) : List String := (s.toList.splitOn '.').map String.ofList

/-- The lower case of the two languages. Both map a text to one whose characters are their own
lower case. -/
structure Lowering where
  /-- `String.prototype.toLowerCase`. -/
  toLowerCase : String → String
  /-- `lower` under the collation of the database. -/
  lower : String → String
  /-- The characters that lower-casing leaves alone. -/
  settled : Char → Bool
  settled_dot : settled '.' = true
  settled_star : settled '*' = true
  settled_toLowerCase : ∀ s, ∀ c ∈ (toLowerCase s).toList, settled c = true
  toLowerCase_settled : ∀ s, (∀ c ∈ s.toList, settled c = true) → toLowerCase s = s
  /-- The two agree, and separators do not get in their way. -/
  lower_colonToDot : ∀ s, lower (colonToDot s) = colonToDot (toLowerCase s)

/-! ## The shared package -/

/-- Idempotent: see `normalisePermission_of_normal`. -/
def normalisePermission (l : Lowering) (key : String) : String := colonToDot (l.toLowerCase key)

/-- `matches(granted, requested)`. -/
def matchesGranted (l : Lowering) (granted : List String) (requested : String) : Bool :=
  let req := normalisePermission l requested
  match splitDot req with
  | resource :: action :: _ =>
      if resource = "" ∨ action = "" then false
      else
        let set := granted.map (normalisePermission l)
        set.contains req || set.contains (resource ++ ".*") || set.contains ("*." ++ action) ||
          set.contains "*.*"
  | _ => false

/-! ## The database -/

/-- A row of `roles`. -/
structure RoleRow where
  id : Nat
  active : Bool
  permissions : Option (List String)
  deriving DecidableEq, Repr

instance : Keyed RoleRow Nat where
  key := RoleRow.id

/-- A row of `user_role_assignments`. -/
structure AssignmentRow where
  userId : Nat
  tenantId : Nat
  roleId : Nat
  active : Bool
  startsAt : Option Int := none
  endsAt : Option Int := none
  deriving DecidableEq, Repr

structure RolesDb where
  assignments : List AssignmentRow
  roles : Table RoleRow

def AssignmentRow.inForce (a : AssignmentRow) (now : Int) (userId tenantId : Nat) : Bool :=
  a.userId == userId && a.tenantId == tenantId && a.active &&
    a.startsAt.all (fun t => decide (t ≤ now)) && a.endsAt.all (fun t => decide (now < t))

def userHasPermission (l : Lowering) (db : RolesDb) (now : Int) (userId tenantId : Nat)
    (permission : Option String) : Bool :=
  let key := l.lower (colonToDot (permission.getD ""))
  let parts := splitDot key
  let resource := parts.getD 0 ""
  let action := parts.getD 1 ""
  db.assignments.any fun a =>
    match db.roles.get? a.roleId with
    | none => false
    | some r =>
        a.inForce now userId tenantId && r.active && parts.length == 2 && resource != "" &&
          action != "" && (r.permissions.getD []).any fun g =>
            [key, resource ++ ".*", "*." ++ action, "*.*"].contains g

/-! ## What the two functions say -/

def coveringKeys (key resource action : String) : List String :=
  [key, resource ++ ".*", "*." ++ action, "*.*"]

section

variable {l : Lowering}

/-- Lower case, and no colon. -/
def Normal (l : Lowering) (s : String) : Prop := ∀ c ∈ s.toList, l.settled c = true ∧ c ≠ ':'

theorem normal_normalisePermission (key : String) : Normal l (normalisePermission l key) := by
  intro c hc
  simp only [normalisePermission, colonToDot, String.toList_ofList, List.mem_map] at hc
  obtain ⟨d, hd, rfl⟩ := hc
  split
  · exact ⟨l.settled_dot, by decide⟩
  · rename_i hne
    exact ⟨l.settled_toLowerCase key d hd, hne⟩

variable {s : String}

theorem normalisePermission_of_normal (h : Normal l s) : normalisePermission l s = s := by
  have hlower : l.toLowerCase s = s := l.toLowerCase_settled s fun c hc => (h c hc).1
  have hcolon : s.toList.map (fun c => if c = ':' then '.' else c) = s.toList := by
    refine (List.map_congr_left fun c hc => ?_).trans (List.map_id _)
    exact if_neg (h c hc).2
  rw [normalisePermission, hlower, colonToDot, hcolon, String.ofList_toList]

theorem mem_of_mem_splitOn {sep c : Char} {cs part : List Char} (hpart : part ∈ cs.splitOn sep)
    (hc : c ∈ part) : c ∈ cs := by
  induction cs generalizing part with
  | nil =>
    rw [List.splitOn_nil, List.mem_singleton] at hpart
    rwa [hpart] at hc
  | cons d cs ih =>
    rw [List.splitOn_cons_eq_if_modifyHead] at hpart
    split at hpart
    · rcases List.mem_cons.mp hpart with rfl | hpart
      · exact absurd hc List.not_mem_nil
      · exact List.mem_cons_of_mem d (ih hpart hc)
    · obtain ⟨first, rest, hsplit⟩ := List.exists_cons_of_ne_nil (List.splitOn_ne_nil sep cs)
      rw [hsplit, List.modifyHead_cons] at hpart
      rw [hsplit] at ih
      rcases List.mem_cons.mp hpart with rfl | hpart
      · rcases List.mem_cons.mp hc with rfl | hc
        · exact List.mem_cons_self
        · exact List.mem_cons_of_mem d (ih List.mem_cons_self hc)
      · exact List.mem_cons_of_mem d (ih (List.mem_cons_of_mem first hpart) hc)

theorem normal_of_mem_splitDot {part : String} (h : Normal l s) (hpart : part ∈ splitDot s) :
    Normal l part := by
  intro c hc
  obtain ⟨cs, hcs, rfl⟩ := List.mem_map.mp hpart
  rw [String.toList_ofList] at hc
  exact h c (mem_of_mem_splitOn hcs hc)

theorem normal_append {t : String} (hs : Normal l s) (ht : Normal l t) : Normal l (s ++ t) := by
  intro c hc
  rw [String.toList_append] at hc
  rcases List.mem_append.mp hc with hc | hc
  · exact hs c hc
  · exact ht c hc

theorem normal_wildcard (h : ∀ c ∈ s.toList, c = '.' ∨ c = '*') : Normal l s := by
  intro c hc
  rcases h c hc with rfl | rfl
  · exact ⟨l.settled_dot, by decide⟩
  · exact ⟨l.settled_star, by decide⟩

theorem normal_of_mem_coveringKeys {requested resource action g : String}
    (hresource : resource ∈ splitDot (normalisePermission l requested))
    (haction : action ∈ splitDot (normalisePermission l requested))
    (hg : g ∈ coveringKeys (normalisePermission l requested) resource action) : Normal l g := by
  have hreq : Normal l (normalisePermission l requested) := normal_normalisePermission requested
  simp only [coveringKeys, List.mem_cons, List.not_mem_nil, or_false] at hg
  rcases hg with rfl | rfl | rfl | rfl
  · exact hreq
  · exact normal_append (normal_of_mem_splitDot hreq hresource) (normal_wildcard (by simp))
  · exact normal_append (normal_wildcard (by simp)) (normal_of_mem_splitDot hreq haction)
  · exact normal_wildcard (by simp)

section

variable {granted : List String} {requested resource action : String} {rest : List String}

/-- The shared package grants a request of two segments or more when a grant, normalised, is one of
the four strings. -/
theorem matchesGranted_of_split
    (hsplit : splitDot (normalisePermission l requested) = resource :: action :: rest) :
    matchesGranted l granted requested = true ↔ resource ≠ "" ∧ action ≠ "" ∧ ∃ g ∈ granted,
      normalisePermission l g ∈ coveringKeys (normalisePermission l requested) resource action := by
  simp only [matchesGranted, hsplit, coveringKeys]
  by_cases hempty : resource = "" ∨ action = ""
  · rw [if_pos hempty]
    refine iff_of_false (by decide) fun h => ?_
    rcases hempty with hempty | hempty
    · exact h.1 hempty
    · exact h.2.1 hempty
  · rw [if_neg hempty]
    obtain ⟨hresource, haction⟩ := not_or.mp hempty
    simp only [Bool.or_eq_true, List.contains_iff_mem, List.mem_map, List.mem_cons,
      List.not_mem_nil, or_false]
    constructor
    · intro h
      refine ⟨hresource, haction, ?_⟩
      rcases h with ((⟨g, hg, h⟩ | ⟨g, hg, h⟩) | ⟨g, hg, h⟩) | ⟨g, hg, h⟩
      all_goals exact ⟨g, hg, by simp [h]⟩
    · rintro ⟨_, _, g, hg, h | h | h | h⟩
      · exact Or.inl (Or.inl (Or.inl ⟨g, hg, h⟩))
      · exact Or.inl (Or.inl (Or.inr ⟨g, hg, h⟩))
      · exact Or.inl (Or.inr ⟨g, hg, h⟩)
      · exact Or.inr ⟨g, hg, h⟩

theorem matchesGranted_of_short (hshort : (splitDot (normalisePermission l requested)).length < 2) :
    matchesGranted l granted requested = false := by
  simp only [matchesGranted]
  split
  · rename_i hsplit
    simp only [hsplit, List.length_cons] at hshort
    omega
  · rfl

end

end

/-! ## One role -/

structure OnlyActiveRole (db : RolesDb) (now : Int) (userId tenantId : Nat)
    (granted : List String) : Prop where
  held : ∃ a ∈ db.assignments, a.inForce now userId tenantId = true ∧
    ∃ r, db.roles.get? a.roleId = some r ∧ r.active = true
  only : ∀ a ∈ db.assignments, a.inForce now userId tenantId = true →
    ∀ r, db.roles.get? a.roleId = some r → r.active = true → r.permissions.getD [] = granted

variable {l : Lowering} {db : RolesDb} {now : Int} {userId tenantId : Nat} {granted : List String}

theorem lower_request (requested : String) :
    l.lower (colonToDot ((some requested).getD "")) = normalisePermission l requested :=
  l.lower_colonToDot requested

/-- The database grants a request of two segments when a grant, as stored, is one of the four
strings. -/
theorem userHasPermission_of_split (hrole : OnlyActiveRole db now userId tenantId granted)
    {requested resource action : String}
    (hsplit : splitDot (normalisePermission l requested) = [resource, action]) :
    userHasPermission l db now userId tenantId (some requested) = true ↔
      resource ≠ "" ∧ action ≠ "" ∧ ∃ g ∈ granted,
        g ∈ coveringKeys (normalisePermission l requested) resource action := by
  simp only [userHasPermission, lower_request, hsplit, List.any_eq_true]
  constructor
  · intro h
    obtain ⟨a, ha, h⟩ := h
    cases hrow : db.roles.get? a.roleId with
    | none =>
      rw [hrow] at h
      cases h
    | some r =>
      simp only [hrow, Bool.and_eq_true, bne_iff_ne, List.any_eq_true,
        List.contains_iff_mem] at h
      obtain ⟨⟨⟨⟨⟨hforce, hactive⟩, _⟩, hresource⟩, haction⟩, g, hg, hcovers⟩ := h
      exact ⟨hresource, haction, g, hrole.only a ha hforce r hrow hactive ▸ hg, hcovers⟩
  · intro h
    obtain ⟨hresource, haction, g, hg, hcovers⟩ := h
    obtain ⟨a, ha, hforce, r, hrow, hactive⟩ := hrole.held
    refine ⟨a, ha, ?_⟩
    have hlist := hrole.only a ha hforce r hrow hactive
    simp only [hrow, hforce, hactive, hlist, Bool.and_eq_true, bne_iff_ne, List.any_eq_true,
      List.contains_iff_mem]
    exact ⟨⟨⟨⟨⟨trivial, trivial⟩, rfl⟩, hresource⟩, haction⟩, g, hg, hcovers⟩

theorem userHasPermission_of_other {requested : String}
    (hother : (splitDot (normalisePermission l requested)).length ≠ 2) :
    userHasPermission l db now userId tenantId (some requested) = false := by
  simp only [userHasPermission, lower_request, beq_false_of_ne hother]
  rw [List.any_eq_false]
  intro a _
  cases db.roles.get? a.roleId with
  | none => simp
  | some r => simp

/-! ## The law -/

/-- A request of two segments is covered as stored if it is covered at all, and a longer one is not
covered. -/
def CoveredAlike (l : Lowering) (granted : List String) (requested : String) : Prop :=
  match splitDot (normalisePermission l requested) with
  | [resource, action] => resource ≠ "" → action ≠ "" →
      (∃ g ∈ granted, normalisePermission l g ∈
        coveringKeys (normalisePermission l requested) resource action) →
      ∃ g ∈ granted, g ∈ coveringKeys (normalisePermission l requested) resource action
  | resource :: action :: _ => resource ≠ "" → action ≠ "" → ∀ g ∈ granted,
      normalisePermission l g ∉ coveringKeys (normalisePermission l requested) resource action
  | _ => True

/-- The two functions agree on a request exactly when its two segments are covered as stored if they
are covered at all, or more segments are not covered. -/
theorem permissionsAgree_iff (l : Lowering) (hrole : OnlyActiveRole db now userId tenantId granted)
    (requested : String) :
    (matchesGranted l granted requested = true ↔
      userHasPermission l db now userId tenantId (some requested) = true) ↔
        CoveredAlike l granted requested := by
  unfold CoveredAlike
  cases hsplit : splitDot (normalisePermission l requested) with
  | nil =>
    rw [matchesGranted_of_short (by simp [hsplit]), userHasPermission_of_other (by simp [hsplit])]
    simp
  | cons resource parts =>
    cases parts with
    | nil =>
      rw [matchesGranted_of_short (by simp [hsplit]),
        userHasPermission_of_other (by simp [hsplit])]
      simp
    | cons action rest =>
      have hresource : resource ∈ splitDot (normalisePermission l requested) := by simp [hsplit]
      have haction : action ∈ splitDot (normalisePermission l requested) := by simp [hsplit]
      cases rest with
      | nil =>
        rw [matchesGranted_of_split hsplit, userHasPermission_of_split hrole hsplit]
        have hstored : (∃ g ∈ granted,
            g ∈ coveringKeys (normalisePermission l requested) resource action) →
            ∃ g ∈ granted, normalisePermission l g ∈
              coveringKeys (normalisePermission l requested) resource action := by
          intro h
          obtain ⟨g, hg, hcovers⟩ := h
          have hnormal := normal_of_mem_coveringKeys hresource haction hcovers
          exact ⟨g, hg, (normalisePermission_of_normal hnormal).symm ▸ hcovers⟩
        constructor
        · intro hagree hr ha hcovered
          exact (hagree.mp ⟨hr, ha, hcovered⟩).2.2
        · intro hcond
          exact ⟨fun h => ⟨h.1, h.2.1, hcond h.1 h.2.1 h.2.2⟩,
            fun h => ⟨h.1, h.2.1, hstored h.2.2⟩⟩
      | cons third rest =>
        rw [matchesGranted_of_split hsplit, userHasPermission_of_other (by simp [hsplit])]
        constructor
        · intro hagree hr ha g hg hcovers
          exact Bool.false_ne_true (hagree.mp ⟨hr, ha, g, hg, hcovers⟩)
        · intro hcond
          refine iff_of_false ?_ Bool.false_ne_true
          rintro ⟨hr, ha, g, hg, hcovers⟩
          exact hcond hr ha g hg hcovers

/-! ## Texts of ASCII letters -/

def letters : List (Char × Char) :=
  "ABCDEFGHIJKLMNOPQRSTUVWXYZ".toList.zip "abcdefghijklmnopqrstuvwxyz".toList

def lowerLetter (c : Char) : Char := (letters.lookup c).getD c

theorem lowerLetter_cases (c : Char) : lowerLetter c = c ∨ (c, lowerLetter c) ∈ letters := by
  unfold lowerLetter
  cases hfind : letters.lookup c with
  | none => exact Or.inl rfl
  | some d =>
    obtain ⟨before, after, heq, _⟩ := List.lookup_eq_some_iff.mp hfind
    exact Or.inr (by simp [heq])

theorem lowerLetter_lowerLetter (c : Char) : lowerLetter (lowerLetter c) = lowerLetter c := by
  have hall : ∀ p ∈ letters, lowerLetter p.2 = p.2 := by decide
  rcases lowerLetter_cases c with heq | hmem
  · rw [heq, heq]
  · exact hall _ hmem

theorem lowerLetter_ne_colon {c : Char} (h : c ≠ ':') : lowerLetter c ≠ ':' := by
  have hall : ∀ p ∈ letters, p.2 ≠ ':' := by decide
  rcases lowerLetter_cases c with heq | hmem
  · rwa [heq]
  · exact hall _ hmem

def asciiLowering : Lowering where
  toLowerCase s := String.ofList (s.toList.map lowerLetter)
  lower s := String.ofList (s.toList.map lowerLetter)
  settled c := lowerLetter c == c
  settled_dot := by decide
  settled_star := by decide
  settled_toLowerCase := by
    intro s c hc
    rw [String.toList_ofList] at hc
    obtain ⟨d, _, rfl⟩ := List.mem_map.mp hc
    exact beq_iff_eq.mpr (lowerLetter_lowerLetter d)
  toLowerCase_settled := by
    intro s h
    have hsame : s.toList.map lowerLetter = s.toList :=
      (List.map_congr_left fun c hc => beq_iff_eq.mp (h c hc)).trans (List.map_id _)
    rw [hsame, String.ofList_toList]
  lower_colonToDot := by
    intro s
    simp only [colonToDot, String.toList_ofList, List.map_map]
    congr 1
    refine List.map_congr_left fun c _ => ?_
    by_cases hcolon : c = ':'
    · subst hcolon
      decide
    · simp [hcolon, lowerLetter_ne_colon hcolon]

def agentDb (granted : List String) : RolesDb where
  assignments := [{ userId := 1, tenantId := 1, roleId := 7, active := true }]
  roles := ⟨[{ id := 7, active := true, permissions := some granted }], by simp⟩

theorem agentDb_only (granted : List String) : OnlyActiveRole (agentDb granted) 0 1 1 granted where
  held := ⟨_, List.mem_cons_self, rfl, _, rfl, rfl⟩
  only := by
    intro a ha _ r hrow _
    obtain rfl := List.mem_singleton.mp ha
    obtain rfl := Option.some.inj hrow
    rfl

/-- The two agree on a request of two segments under a stored wildcard. -/
theorem ticketsRead_agree :
    matchesGranted asciiLowering ["tickets.*"] "Tickets:read" = true ↔
      userHasPermission asciiLowering (agentDb ["tickets.*"]) 0 1 1 (some "Tickets:read") = true := by
  refine (permissionsAgree_iff asciiLowering (agentDb_only ["tickets.*"]) "Tickets:read").mpr ?_
  have hsplit : splitDot (normalisePermission asciiLowering "Tickets:read") = ["tickets", "read"] := by
    decide +kernel
  unfold CoveredAlike
  rw [hsplit]
  exact fun _ _ _ => ⟨"tickets.*", List.mem_cons_self, by decide +kernel⟩

/-- The interface offers what the database refuses: the third segment is dropped. -/
theorem threeSegments_disagree :
    OnlyActiveRole (agentDb ["tickets.*"]) 0 1 1 ["tickets.*"] ∧
      ¬(matchesGranted asciiLowering ["tickets.*"] "tickets.read.all" = true ↔
        userHasPermission asciiLowering (agentDb ["tickets.*"]) 0 1 1
          (some "tickets.read.all") = true) :=
  ⟨agentDb_only ["tickets.*"], by decide +kernel⟩

end Prequest.Roles
