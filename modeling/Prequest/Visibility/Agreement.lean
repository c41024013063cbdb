import Prequest.Visibility.Gate

/-!
# The gate and the lists

The gate for reading and the lists of the database ask the same questions, but
not about the same rows. The lists read all memberships, role assignments and
spaces of an actor; the gate has the first `max_rows` of each, and takes the
request type of a work order only if it is one of the tenant. What the gate
accepts is listed. What is listed is accepted where the gate has not lost the
path that reaches the row.

* `accepted_iff_listed_iff`: the two agree on a row if and only if this holds.
-/

namespace Prequest.Visibility

open Prequest.Lib Prequest.Sla

def Listed (db : VisibilityDb) (ctx : VisibilityContext) (e : TicketRow) : Prop :=
  ∃ userId, ctx.userId = some userId ∧ e.id ∈ visibilityIds e.kind db userId ctx.tenantId

section Agreement

variable {api : DataApi} {db : VisibilityDb} {user : UserRow} {authUid tenantId : Uuid}
  {e : TicketRow}

/-! ## What the gate accepts is listed -/

theorem actor?_of_userOf (h : db.userOf authUid tenantId = some user) :
    db.actor? user.id tenantId = some user := by
  have hmem : user ∈ db.users.rows := List.mem_of_find?_eq_some h
  have htenant : (user.tenantId == tenantId && user.authUid == some authUid) = true :=
    List.find?_some (p := fun u : UserRow => u.tenantId == tenantId && u.authUid == some authUid) h
  unfold VisibilityDb.actor?
  rw [show db.users.get? user.id = some user from Table.get?_of_mem hmem]
  simp only [Bool.and_eq_true, beq_iff_eq] at htenant
  simp [htenant.1]

theorem domainOf_of_gateDomainOf {d : String} (h : db.gateDomainOf tenantId e = some d) :
    db.domainOf e = some d := by
  unfold VisibilityDb.gateDomainOf at h
  cases hkind : e.kind with
  | case =>
    rw [hkind] at h
    exact h
  | workOrder =>
    rw [hkind] at h
    obtain ⟨rt, hrt, hdomain⟩ := Option.bind_eq_some_iff.mp h
    exact Option.bind_eq_some_iff.mpr ⟨rt, (Option.filter_eq_some_iff.mp hrt).1, hdomain⟩

/-- The locations of a loaded role are locations of its scope, and none are left only where there
were none. -/
theorem locations_loadRole (r : RoleAssignment) :
    (loadRole api db.spaces r).scope.locations ⊆ (db.roleScope r).locations ∧
      ((loadRole api db.spaces r).scope.locations = [] → (db.roleScope r).locations = []) := by
  show expandLocationClosure api db.spaces (r.locationScope.getD []) ⊆ (db.roleScope r).locations ∧
    (expandLocationClosure api db.spaces (r.locationScope.getD []) = [] →
      (db.roleScope r).locations = [])
  unfold expandLocationClosure VisibilityDb.roleScope
  cases hroots : r.locationScope.getD [] with
  | nil => simp
  | cons root roots =>
    simp only
    constructor
    · intro id hid
      exact (api.arrange_perm _).mem_iff.mp (api.page_subset _ hid)
    · intro hnone
      -- the closure has the root, and a response has at least one row
      have hroot : root ∈ api.arrange (expandSpaceClosure db.spaces (root :: roots)) :=
        (api.arrange_perm _).mem_iff.mpr
          (mem_expandSpaceClosure_of_root List.mem_cons_self)
      have hpos := api.maxRows_pos
      rcases List.take_eq_nil_iff.mp hnone with hzero | hnil
      · omega
      · rw [hnil] at hroot
        exact absurd hroot List.not_mem_nil

theorem covers_of_loadRole {r : RoleAssignment}
    (h : (loadRole api db.spaces r).scope.Covers (db.gateDomainOf tenantId e) e.locationId) :
    (db.roleScope r).Covers (db.domainOf e) e.locationId :=
  h.mono rfl (fun _ => domainOf_of_gateDomainOf) (locations_loadRole r).1 (locations_loadRole r).2

theorem scopeReaches_of_roleReaches
    (h : RoleReaches (contextOf api db user tenantId) (db.gateDomainOf tenantId e) e) :
    ScopeReaches ((db.rolePaths user.id tenantId).map db.roleScope) (db.domainOf e) e := by
  obtain ⟨role, hrole, hcovers⟩ := h
  obtain ⟨r, hr, rfl⟩ := List.mem_map.mp hrole
  exact ⟨db.roleScope r, List.mem_map_of_mem (api.page_subset _ hr), covers_of_loadRole hcovers⟩

theorem teamReaches_of_page (h : TeamReaches (contextOf api db user tenantId).teamIds e) :
    TeamReaches (db.teamIds user.id tenantId) e := by
  obtain ⟨team, hteam, hassigned⟩ := h
  exact ⟨team, api.page_subset _ hteam, hassigned⟩

theorem listed_iff (huser : db.userOf authUid tenantId = some user) (he : e ∈ db.entities.rows) :
    Listed db (contextOf api db user tenantId) e ↔ e.tenantId = tenantId ∧
      (IsParticipant user e ∨ TeamReaches (db.teamIds user.id tenantId) e ∨
        ScopeReaches ((db.rolePaths user.id tenantId).map db.roleScope) (db.domainOf e) e) := by
  rw [← mem_visibilityIds (actor?_of_userOf huser) he]
  constructor
  · rintro ⟨userId, hid, hlisted⟩
    obtain rfl := Option.some.inj hid
    exact hlisted
  · intro hlisted
    exact ⟨user.id, rfl, hlisted⟩

theorem loadContext_unknown (api : DataApi) (hnone : db.userOf authUid tenantId = none) :
    loadContext api db authUid tenantId =
      { userId := none, personId := none, tenantId := tenantId, teamIds := []
        roleAssignments := [], hasReadAll := false, hasWriteAll := false } := by
  unfold loadContext
  rw [hnone]

theorem assertVisible_unknown (api : DataApi) (hnone : db.userOf authUid tenantId = none)
    (he : e ∈ db.entities.rows) (mode : Mode) :
    assertVisible db e.id (loadContext api db authUid tenantId) mode ≠ .ok () := by
  rw [loadContext_unknown api hnone]
  unfold assertVisible
  simp only [Bool.false_eq_true, and_false, if_false]
  by_cases htenant : e.tenantId = tenantId
  · rw [loadTicketRow_of_mem he htenant]
    cases hteam : e.assignedTeamId <;> cases mode <;>
      simp [participantMatch, sameId, inTeams, forbidden, VisibilityDb.forVisibility, hteam]
  · rw [loadTicketRow_of_foreign he htenant]
    simp

theorem listed_of_accepted (he : e ∈ db.entities.rows)
    (h : assertVisible db e.id (loadContext api db authUid tenantId) .read = .ok ()) :
    (loadContext api db authUid tenantId).hasReadAll = true ∨
      Listed db (loadContext api db authUid tenantId) e := by
  cases huser : db.userOf authUid tenantId with
  | none => exact absurd h (assertVisible_unknown api huser he .read)
  | some user =>
    have hctx : loadContext api db authUid tenantId = contextOf api db user tenantId := by
      unfold loadContext
      rw [huser]
    rw [hctx] at h ⊢
    rw [listed_iff huser he]
    apply ((assertVisible_read_iff he).mp h).imp_right
    rintro ⟨htenant, hreach⟩
    exact ⟨htenant, hreach.imp_right (Or.imp teamReaches_of_page scopeReaches_of_roleReaches)⟩

/-! ## What is listed -/

/-- If a team or a role scope reaches the row, one does among those that the gate has. -/
def PathKept (api : DataApi) (db : VisibilityDb) (authUid tenantId : Uuid) (e : TicketRow) : Prop :=
  ∀ user, db.userOf authUid tenantId = some user → e.tenantId = tenantId →
    db.hasPermission user.id tenantId "tickets.read_all" = true ∨ IsParticipant user e ∨
      (TeamReaches (db.teamIds user.id tenantId) e ∨
          ScopeReaches ((db.rolePaths user.id tenantId).map db.roleScope) (db.domainOf e) e →
        TeamReaches (api.page (db.teamIds user.id tenantId)) e ∨
          ScopeReaches
            ((api.page (db.rolePaths user.id tenantId)).map fun r =>
              (loadRole api db.spaces r).scope)
            (db.gateDomainOf tenantId e) e)

theorem roleReaches_contextOf {domain : Option String} :
    RoleReaches (contextOf api db user tenantId) domain e ↔
      ScopeReaches ((api.page (db.rolePaths user.id tenantId)).map fun r =>
        (loadRole api db.spaces r).scope) domain e := by
  unfold RoleReaches ScopeReaches
  show (∃ role ∈ (api.page (db.rolePaths user.id tenantId)).map (loadRole api db.spaces), _) ↔ _
  simp only [List.mem_map, exists_exists_and_eq_and]

/-- The gate and the list of its kind agree on a row if and only if the gate has kept the path to
it. -/
theorem accepted_iff_listed_iff (api : DataApi) (db : VisibilityDb) (authUid tenantId : Uuid)
    (e : TicketRow) (he : e ∈ db.entities.rows) :
    (assertVisible db e.id (loadContext api db authUid tenantId) .read = .ok () ↔
      (loadContext api db authUid tenantId).hasReadAll = true ∨
        Listed db (loadContext api db authUid tenantId) e) ↔
      PathKept api db authUid tenantId e := by
  cases huser : db.userOf authUid tenantId with
  | none =>
    refine iff_of_true (iff_of_false (assertVisible_unknown api huser he .read) ?_) ?_
    · unfold loadContext
      rw [huser]
      rintro (hall | ⟨userId, hid, _⟩)
      · cases hall
      · cases hid
    · intro user hsome
      rw [huser] at hsome
      cases hsome
  | some user =>
    have hctx : loadContext api db authUid tenantId = contextOf api db user tenantId := by
      unfold loadContext
      rw [huser]
    constructor
    · intro hagree user' huser' htenant
      rw [huser] at huser'
      obtain rfl := Option.some.inj huser'
      by_cases hall : db.hasPermission user.id tenantId "tickets.read_all" = true
      · exact .inl hall
      · by_cases hparticipant : IsParticipant user e
        · exact .inr (.inl hparticipant)
        · refine .inr (.inr ?_)
          intro hreach
          have hlisted : Listed db (loadContext api db authUid tenantId) e := by
            rw [hctx, listed_iff huser he]
            exact ⟨htenant, .inr hreach⟩
          have haccepted := hagree.mpr (.inr hlisted)
          rw [hctx, assertVisible_read_iff he] at haccepted
          rcases haccepted with hread | ⟨_, hpart | hteam | hrole⟩
          · exact absurd hread hall
          · exact absurd hpart hparticipant
          · exact .inl hteam
          · exact .inr (roleReaches_contextOf.mp hrole)
    · intro hkept
      refine ⟨listed_of_accepted he, ?_⟩
      rw [hctx, assertVisible_read_iff he, listed_iff huser he]
      rintro (hall | ⟨htenant, hreach⟩)
      · exact .inl hall
      · rcases hkept user huser htenant with hall | hparticipant | hpage
        · exact .inl hall
        · exact .inr ⟨htenant, .inl hparticipant⟩
        · right
          refine ⟨htenant, ?_⟩
          rcases hreach with hparticipant | hreach
          · exact .inl hparticipant
          · exact .inr ((hpage hreach).imp_right roleReaches_contextOf.mpr)

end Agreement

/-! ## A campus of more than a thousand spaces -/

/-- The limit of `config.toml`. -/
def configuredApi : DataApi where
  maxRows := 1000
  maxRows_pos := by decide
  arrange ids := ids
  arrange_perm ids := List.Perm.refl ids

/-- A campus with many rooms, an agent of the campus, and a case in the last room. -/
def campus (rooms : Nat) : VisibilityDb where
  users :=
    { rows := [{ id := 1, tenantId := 0, personId := none, authUid := some 1 }]
      nodup := by decide }
  roleAssignments :=
    [{ tenantId := 0, userId := 1, domainScope := none, locationScope := some [0]
       readOnlyCrossDomain := false, active := true }]
  spaces := { id := 0, parentId := none } ::
    (List.range rooms).map fun k => { id := k + 1, parentId := some 0 }
  entities :=
    { rows := [{ id := 7, kind := .case, tenantId := 0, locationId := some rooms }]
      nodup := by simp }

section Campus

variable {rooms : Nat}

theorem campus_closure : expandSpaceClosure (campus rooms).spaces [0] = List.range (rooms + 1) := by
  have hfirst : chain (campus rooms).spaces [0] 1 = (List.range rooms).map (· + 1) := by
    simp [chain, childSpaces, campus, List.filter_map, Function.comp_def]
  have hnext : ∀ depth, chain (campus rooms).spaces [0] (depth + 2) = [] := by
    intro depth
    induction depth with
    | zero =>
      show childSpaces (campus rooms).spaces (chain (campus rooms).spaces [0] 1) = []
      rw [hfirst]
      simp [childSpaces, campus]
    | succ depth ih =>
      show childSpaces (campus rooms).spaces (chain (campus rooms).spaces [0] (depth + 2)) = []
      rw [ih]
      rfl
  have hlevels : (List.range 21).flatMap (chain (campus rooms).spaces [0]) =
      List.range (rooms + 1) := by
    have hsplit : List.range 21 = 0 :: 1 :: (List.range 19).map (· + 2) := by decide
    rw [hsplit, List.flatMap_cons, List.flatMap_cons, hfirst, List.flatMap_map]
    simp only [hnext]
    have hempty : ((List.range 19).flatMap fun _ : Nat => ([] : List Uuid)) = [] := by decide
    rw [hempty, List.append_nil]
    exact List.range_succ_eq_map.symm
  unfold expandSpaceClosure
  rw [hlevels]
  exact List.nodup_range.dedup

/-- The agent of the campus, as `users` has it. -/
def campusAgent : UserRow := { id := 1, tenantId := 0, personId := none, authUid := some 1 }

def campusRole : RoleAssignment where
  tenantId := 0
  userId := 1
  domainScope := none
  locationScope := some [0]
  readOnlyCrossDomain := false
  active := true

def lastRoom (rooms : Nat) : TicketRow :=
  { id := 7, kind := .case, tenantId := 0, locationId := some rooms }

theorem campus_disagrees {api : DataApi} (hmax : api.maxRows = rooms)
    (harrange : ∀ ids, api.arrange ids = ids) :
    ¬(assertVisible (campus rooms) (lastRoom rooms).id (loadContext api (campus rooms) 1 0) .read =
        .ok () ↔
      (loadContext api (campus rooms) 1 0).hasReadAll = true ∨
        Listed (campus rooms) (loadContext api (campus rooms) 1 0) (lastRoom rooms)) := by
  have hmem : lastRoom rooms ∈ (campus rooms).entities.rows := List.mem_singleton_self _
  have huser : (campus rooms).userOf 1 0 = some campusAgent := rfl
  have hpaths : (campus rooms).rolePaths 1 0 = [campusRole] := rfl
  have hctx : loadContext api (campus rooms) 1 0 = contextOf api (campus rooms) campusAgent 0 := rfl
  rw [hctx, assertVisible_read_iff hmem, listed_iff huser hmem]
  intro hagree
  have hlisted : ScopeReaches (((campus rooms).rolePaths campusAgent.id 0).map (campus rooms).roleScope)
      ((campus rooms).domainOf (lastRoom rooms)) (lastRoom rooms) := by
    refine ⟨(campus rooms).roleScope campusRole, List.mem_map_of_mem ?_, .inl rfl, .inr (.inr ?_)⟩
    · show campusRole ∈ (campus rooms).rolePaths 1 0
      rw [hpaths]
      exact List.mem_singleton_self _
    · refine ⟨rooms, ?_, rfl⟩
      show rooms ∈ expandSpaceClosure (campus rooms).spaces [0]
      rw [campus_closure, List.mem_range]
      omega
  rcases hagree.mpr (.inr ⟨rfl, .inr (.inr hlisted)⟩) with hall | ⟨_, hpart | hteam | hrole⟩
  · cases hall
  · rcases hpart with ⟨_, hid, _⟩ | hid | ⟨_, hwatcher, _⟩
    · cases hid
    · cases hid
    · exact absurd hwatcher List.not_mem_nil
  · obtain ⟨team, _, hassigned⟩ := hteam
    cases hassigned
  · obtain ⟨role, hrole, _, hplace⟩ := hrole
    have hloaded : (loadRole api (campus rooms).spaces campusRole).scope.locations =
        List.range rooms := by
      show api.page (api.arrange (expandSpaceClosure (campus rooms).spaces [0])) = List.range rooms
      rw [harrange, campus_closure]
      unfold DataApi.page
      rw [hmax, List.take_range, Nat.min_eq_left (Nat.le_succ rooms)]
    have hone : role = loadRole api (campus rooms).spaces campusRole := by
      obtain ⟨r, hr, rfl⟩ := List.mem_map.mp hrole
      have hr' : r ∈ (campus rooms).rolePaths 1 0 := api.page_subset _ hr
      rw [hpaths] at hr'
      rw [List.mem_singleton.mp hr']
    rw [hone, hloaded] at hplace
    have hpos := api.maxRows_pos
    rcases hplace with hnil | hnone | ⟨l, hl, hsome⟩
    · have hlength := congrArg List.length hnil
      rw [List.length_range] at hlength
      simp at hlength
      omega
    · cases hnone
    · obtain rfl : rooms = l := Option.some.inj hsome
      rw [List.mem_range] at hl
      omega

end Campus

/-- The list has the case in the last of a thousand rooms, and the gate refuses it. -/
theorem lastRoom_refused :
    ¬∀ (api : DataApi) (db : VisibilityDb) (authUid tenantId : Uuid) (e : TicketRow),
      e ∈ db.entities.rows →
        (assertVisible db e.id (loadContext api db authUid tenantId) .read = .ok () ↔
          (loadContext api db authUid tenantId).hasReadAll = true ∨
            Listed db (loadContext api db authUid tenantId) e) := by
  intro h
  have hagree := h configuredApi (campus 1000) 1 0 (lastRoom 1000) (List.mem_singleton_self _)
  have hmax : configuredApi.maxRows = 1000 := rfl
  exact campus_disagrees hmax (fun _ => rfl) hagree

/-- The case of a person who requested it. -/
def desk : VisibilityDb where
  users :=
    { rows := [{ id := 1, tenantId := 0, personId := some 5, authUid := some 1 }]
      nodup := by decide }
  entities :=
    { rows := [{ id := 7, kind := .case, tenantId := 0, requesterPersonId := some 5 }]
      nodup := by decide }

/-- The requester of a case is accepted, and has it listed. -/
theorem requester_agrees :
    assertVisible desk 7 (loadContext configuredApi desk 1 0) .read = .ok () ↔
      (loadContext configuredApi desk 1 0).hasReadAll = true ∨
        Listed desk (loadContext configuredApi desk 1 0)
          { id := 7, kind := .case, tenantId := 0, requesterPersonId := some 5 } := by
  apply (accepted_iff_listed_iff configuredApi desk 1 0
    { id := 7, kind := .case, tenantId := 0, requesterPersonId := some 5 }
    (List.mem_singleton_self _)).mpr
  intro user huser _
  obtain rfl := Option.some.inj (huser : some _ = some user)
  exact .inr (.inl (.inl ⟨5, rfl, rfl⟩))

end Prequest.Visibility
