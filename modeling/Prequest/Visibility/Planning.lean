import Prequest.Visibility.Agreement

/-!
# Writing, planning and reading

Who may write or plan a row should be able to read it, and the planning board
should list the work orders that an actor may plan. Two rights stand beside the
paths that reading knows: `tickets.write_all`, and the team of the parent case,
which may plan.

* `rightsNested_iff`: the rights are nested if and only if the actor holds
  neither of the two rights, or reaches the row anyway.
-/

namespace Prequest.Visibility

open Prequest.Lib Prequest.Sla

section Planning

variable {api : DataApi} {db : VisibilityDb} {user : UserRow} {authUid tenantId : Uuid}
  {e : TicketRow}

/-! ## What writing and planning take -/

theorem writableRole_iff {ctx : VisibilityContext} {domain : Option String} :
    (ctx.roleAssignments.any fun role =>
      !role.readOnlyCrossDomain && roleMatches role domain e.locationId) = true ↔
      WritableRoleReaches ctx domain e := by
  unfold WritableRoleReaches
  simp only [List.any_eq_true, Bool.and_eq_true, Bool.not_eq_true', roleMatches_iff]

theorem assertVisible_write_iff (he : e ∈ db.entities.rows) :
    assertVisible db e.id (contextOf api db user tenantId) .write = .ok () ↔
      (contextOf api db user tenantId).hasWriteAll = true ∨ e.tenantId = tenantId ∧
        (IsParticipant user e ∨
          TeamReaches (contextOf api db user tenantId).teamIds e ∨
          WritableRoleReaches (contextOf api db user tenantId) (db.gateDomainOf tenantId e) e) := by
  have hroles : rolesAccept ((contextOf api db user tenantId).roleAssignments.filter fun role =>
      roleMatches role (db.gateDomainOf tenantId e) e.locationId) .write = true ↔
      WritableRoleReaches (contextOf api db user tenantId) (db.gateDomainOf tenantId e) e := by
    unfold rolesAccept
    rw [← writableRole_iff, List.any_filter]
    simp only [List.any_eq_true, Bool.and_comm]
  rw [assertVisible_iff he, hroles]
  rfl

def InParentTeam (api : DataApi) (db : VisibilityDb) (user : UserRow) (tenantId : Uuid)
    (e : TicketRow) : Prop :=
  ∃ team ∈ api.page (db.teamIds user.id tenantId), db.parentTeamOf tenantId e = some team

theorem assertCanPlan_iff (he : e ∈ db.entities.rows) :
    assertCanPlan db e.id (contextOf api db user tenantId) = .ok () ↔
      (contextOf api db user tenantId).hasWriteAll = true ∨ e.tenantId = tenantId ∧
        (e.assignedUserId = some user.id ∨
          TeamReaches (contextOf api db user tenantId).teamIds e ∨
          InParentTeam api db user tenantId e ∨
          WritableRoleReaches (contextOf api db user tenantId) (db.gateDomainOf tenantId e) e) := by
  have hparent : inTeams (contextOf api db user tenantId) (db.parentTeamOf tenantId e) = true ↔
      InParentTeam api db user tenantId e := inTeams_iff
  generalize hctx : contextOf api db user tenantId = ctx at hparent ⊢
  have htenantId : ctx.tenantId = tenantId := by rw [← hctx]; rfl
  have huser : sameId e.assignedUserId ctx.userId = true ↔ e.assignedUserId = some user.id := by
    rw [sameId_iff, ← hctx]
    constructor
    · rintro ⟨id, hid, hassigned⟩
      rw [hassigned, ← hid]
      rfl
    · intro hassigned
      exact ⟨user.id, rfl, hassigned⟩
  have hvendor : sameId ctx.vendorId e.assignedVendorId = false := by
    rw [← hctx]
    rfl
  have hteam : inTeams ctx e.assignedTeamId = true ↔ TeamReaches ctx.teamIds e := inTeams_iff
  unfold assertCanPlan
  by_cases hall : ctx.hasWriteAll = true
  · simp [hall]
  · rw [if_neg hall, htenantId]
    by_cases htenant : e.tenantId = tenantId
    · rw [loadTicketRow_of_mem he htenant]
      have hplan : canPlanRow (db.forVisibility tenantId e) ctx = true ↔
          e.assignedUserId = some user.id ∨ TeamReaches ctx.teamIds e ∨
            InParentTeam api db user tenantId e ∨
            WritableRoleReaches ctx (db.gateDomainOf tenantId e) e := by
        rw [← huser, ← hteam, ← hparent, ← writableRole_iff]
        show (ctx.hasWriteAll || sameId e.assignedUserId ctx.userId ||
          sameId ctx.vendorId e.assignedVendorId ||
          [e.assignedTeamId, db.parentTeamOf tenantId e].any (inTeams ctx) ||
          ctx.roleAssignments.any fun role =>
            !role.readOnlyCrossDomain && roleMatches role (db.gateDomainOf tenantId e)
              e.locationId) = true ↔ _
        simp [hall, hvendor, or_assoc]
      rw [← hplan]
      by_cases hcan : canPlanRow (db.forVisibility tenantId e) ctx = true
      · simp [hcan, htenant]
      · simp [hcan, htenant, hall]
    · rw [loadTicketRow_of_foreign he htenant]
      simp [hall, htenant]

/-! ## Nested rights -/

def OnBoard (db : VisibilityDb) (ctx : VisibilityContext) (e : TicketRow) : Prop :=
  ∃ userId, ctx.userId = some userId ∧ e.id ∈ workOrdersVisibleToOperator db userId ctx.tenantId

/-- Who may write or plan the row may read it and has it listed, and who may plan a work order has
it on the board. -/
def RightsNested (db : VisibilityDb) (ctx : VisibilityContext) (e : TicketRow) : Prop :=
  (assertVisible db e.id ctx .write = .ok () ∨ assertCanPlan db e.id ctx = .ok () →
    assertVisible db e.id ctx .read = .ok () ∧ (ctx.hasReadAll = true ∨ Listed db ctx e)) ∧
  (e.kind = .workOrder → assertCanPlan db e.id ctx = .ok () → OnBoard db ctx e)

/-- The actor may read all, or reaches the row as a participant, by a team or by a role; and a work
order as its assignee, by its team, or by a role that may write. -/
def OwnPath (api : DataApi) (db : VisibilityDb) (user : UserRow) (tenantId : Uuid) (e : TicketRow) :
    Prop :=
  (db.hasPermission user.id tenantId "tickets.read_all" = true ∨ e.tenantId = tenantId ∧
    (IsParticipant user e ∨ TeamReaches (contextOf api db user tenantId).teamIds e ∨
      RoleReaches (contextOf api db user tenantId) (db.gateDomainOf tenantId e) e)) ∧
  (e.kind = .workOrder → e.tenantId = tenantId ∧
    (e.assignedUserId = some user.id ∨ TeamReaches (db.teamIds user.id tenantId) e ∨
      ScopeReaches
        (((db.rolePaths user.id tenantId).filter fun r => !r.readOnlyCrossDomain).map db.roleScope)
        (db.tenantDomainOf tenantId e) e))

/-- The actor holds neither of the two rights over the row, or reaches it anyway. -/
def Grounded (api : DataApi) (db : VisibilityDb) (authUid tenantId : Uuid) (e : TicketRow) : Prop :=
  ∀ user, db.userOf authUid tenantId = some user →
    (db.hasPermission user.id tenantId "tickets.write_all" = false ∧
        (e.tenantId = tenantId → ¬InParentTeam api db user tenantId e)) ∨
      OwnPath api db user tenantId e

theorem scopeReaches_of_writableRole (hkind : e.kind = .workOrder)
    (h : WritableRoleReaches (contextOf api db user tenantId) (db.gateDomainOf tenantId e) e) :
    ScopeReaches
      (((db.rolePaths user.id tenantId).filter fun r => !r.readOnlyCrossDomain).map db.roleScope)
      (db.tenantDomainOf tenantId e) e := by
  obtain ⟨role, hrole, hwritable, hcovers⟩ := h
  obtain ⟨r, hr, rfl⟩ := List.mem_map.mp hrole
  refine ⟨db.roleScope r, List.mem_map_of_mem (List.mem_filter.mpr ⟨api.page_subset _ hr, ?_⟩), ?_⟩
  · show (!(loadRole api db.spaces r).readOnlyCrossDomain) = true
    rw [hwritable]
    rfl
  · have hdomain : db.gateDomainOf tenantId e = db.tenantDomainOf tenantId e := by
      unfold VisibilityDb.gateDomainOf
      rw [hkind]
    rw [hdomain] at hcovers
    exact hcovers.mono rfl (fun _ hd => hd) (locations_loadRole r).1 (locations_loadRole r).2

theorem onBoard_iff (huser : db.userOf authUid tenantId = some user) (he : e ∈ db.entities.rows)
    (hkind : e.kind = .workOrder) :
    OnBoard db (contextOf api db user tenantId) e ↔ e.tenantId = tenantId ∧
      (e.assignedUserId = some user.id ∨ TeamReaches (db.teamIds user.id tenantId) e ∨
        ScopeReaches
          (((db.rolePaths user.id tenantId).filter fun r => !r.readOnlyCrossDomain).map
            db.roleScope)
          (db.tenantDomainOf tenantId e) e) := by
  rw [← mem_workOrdersVisibleToOperator (actor?_of_userOf huser) he hkind]
  constructor
  · rintro ⟨userId, hid, hlisted⟩
    obtain rfl := Option.some.inj hid
    exact hlisted
  · intro hlisted
    exact ⟨user.id, rfl, hlisted⟩

theorem rightsNested_unknown (hnone : db.userOf authUid tenantId = none)
    (he : e ∈ db.entities.rows) : RightsNested db (loadContext api db authUid tenantId) e := by
  have hctx := loadContext_unknown api hnone
  have hwrite := assertVisible_unknown api hnone he .write
  have hplan : assertCanPlan db e.id (loadContext api db authUid tenantId) ≠ .ok () := by
    rw [hctx]
    unfold assertCanPlan
    simp only [Bool.false_eq_true, if_false]
    by_cases htenant : e.tenantId = tenantId
    · rw [loadTicketRow_of_mem he htenant]
      have hteams : ∀ team, inTeams (loadContext api db authUid tenantId) team = false := by
        intro team
        rw [hctx]
        cases team with
        | none => rfl
        | some t => rfl
      rw [hctx] at hteams
      cases hassigned : e.assignedUserId with
      | none => simp [canPlanRow, sameId, hteams, VisibilityDb.forVisibility, hassigned]
      | some id => simp [canPlanRow, sameId, hteams, VisibilityDb.forVisibility, hassigned]
    · rw [loadTicketRow_of_foreign he htenant]
      simp
  constructor
  · rintro (h | h)
    · exact absurd h hwrite
    · exact absurd h hplan
  · intro _ h
    exact absurd h hplan

/-- The rights over a row are nested if and only if they rest on a path that reading knows. -/
theorem rightsNested_iff (api : DataApi) (db : VisibilityDb) (authUid tenantId : Uuid)
    (e : TicketRow) (he : e ∈ db.entities.rows) :
    RightsNested db (loadContext api db authUid tenantId) e ↔ Grounded api db authUid tenantId e := by
  cases huser : db.userOf authUid tenantId with
  | none =>
    refine iff_of_true (rightsNested_unknown huser he) ?_
    intro user hsome
    rw [huser] at hsome
    cases hsome
  | some user =>
    have hctx : loadContext api db authUid tenantId = contextOf api db user tenantId := by
      unfold loadContext
      rw [huser]
    have hlisted : assertVisible db e.id (contextOf api db user tenantId) .read = .ok () →
        (contextOf api db user tenantId).hasReadAll = true ∨
          Listed db (contextOf api db user tenantId) e := by
      intro hread
      rw [← hctx] at hread ⊢
      exact listed_of_accepted he hread
    have hwriteAll : (contextOf api db user tenantId).hasWriteAll =
        db.hasPermission user.id tenantId "tickets.write_all" := rfl
    constructor
    · intro hnested user' huser'
      rw [huser] at huser'
      obtain rfl := Option.some.inj huser'
      rw [hctx] at hnested
      by_cases hgrounded : db.hasPermission user.id tenantId "tickets.write_all" = false ∧
          (e.tenantId = tenantId → ¬InParentTeam api db user tenantId e)
      · exact .inl hgrounded
      · right
        have hplan : assertCanPlan db e.id (contextOf api db user tenantId) = .ok () := by
          rw [assertCanPlan_iff he, hwriteAll]
          by_contra hnot
          apply hgrounded
          constructor
          · cases hall : db.hasPermission user.id tenantId "tickets.write_all" with
            | false => rfl
            | true => exact absurd (.inl hall) hnot
          · intro htenant hparent
            exact hnot (.inr ⟨htenant, .inr (.inr (.inl hparent))⟩)
        constructor
        · exact (assertVisible_read_iff he).mp (hnested.1 (.inr hplan)).1
        · intro hkind
          exact (onBoard_iff huser he hkind).mp (hnested.2 hkind hplan)
    · intro hgrounded
      rw [hctx]
      rcases hgrounded user huser with ⟨hnotAll, hnotParent⟩ | ⟨hread, hboard⟩
      · constructor
        · intro hright
          have hread : assertVisible db e.id (contextOf api db user tenantId) .read = .ok () := by
            rw [assertVisible_read_iff he]
            right
            rw [assertVisible_write_iff he, assertCanPlan_iff he, hwriteAll, hnotAll] at hright
            rcases hright with (hall | ⟨htenant, hreach⟩) | (hall | ⟨htenant, hreach⟩)
            · cases hall
            · exact ⟨htenant, hreach.imp_right (Or.imp_right WritableRoleReaches.roleReaches)⟩
            · cases hall
            · refine ⟨htenant, ?_⟩
              rcases hreach with hassigned | hteam | hparent | hrole
              · exact .inl (.inr (.inl hassigned))
              · exact .inr (.inl hteam)
              · exact absurd hparent (hnotParent htenant)
              · exact .inr (.inr hrole.roleReaches)
          exact ⟨hread, hlisted hread⟩
        · intro hkind hplan
          rw [onBoard_iff huser he hkind]
          rw [assertCanPlan_iff he, hwriteAll, hnotAll] at hplan
          rcases hplan with hall | ⟨htenant, hreach⟩
          · cases hall
          · refine ⟨htenant, ?_⟩
            rcases hreach with hassigned | hteam | hparent | hrole
            · exact .inl hassigned
            · exact .inr (.inl (teamReaches_of_page hteam))
            · exact absurd hparent (hnotParent htenant)
            · exact .inr (.inr (scopeReaches_of_writableRole hkind hrole))
      · have haccepted : assertVisible db e.id (contextOf api db user tenantId) .read = .ok () :=
          (assertVisible_read_iff he).mpr hread
        exact ⟨fun _ => ⟨haccepted, hlisted haccepted⟩,
          fun hkind _ => (onBoard_iff huser he hkind).mpr (hboard hkind)⟩

end Planning

/-! ## A team and the work orders of its cases -/

theorem nodup_teamUser :
    ([({ id := 1, tenantId := 0, personId := none, authUid := some 1 } :
      UserRow)].map key).Nodup := by decide

def teamCase : VisibilityDb where
  users :=
    { rows := [{ id := 1, tenantId := 0, personId := none, authUid := some 1 }]
      nodup := nodup_teamUser }
  teamMembers := [{ tenantId := 0, teamId := 3, userId := 1 }]
  entities :=
    { rows :=
        [{ id := 7, kind := .case, tenantId := 0, assignedTeamId := some 3 },
         { id := 8, kind := .workOrder, tenantId := 0, assignedTeamId := some 4
           parentTicketId := some 7 }]
      nodup := by decide }

/-- A member of the team plans the work order without being able to read it. -/
theorem parentTeam_plansUnseen :
    ¬∀ (api : DataApi) (db : VisibilityDb) (authUid tenantId : Uuid) (e : TicketRow),
      e ∈ db.entities.rows → RightsNested db (loadContext api db authUid tenantId) e := by
  intro h
  have hnested := h configuredApi teamCase 1 0
    { id := 8, kind := .workOrder, tenantId := 0, assignedTeamId := some 4
      parentTicketId := some 7 } (by decide)
  have hread := (hnested.1 (.inr rfl)).1
  have hrefused : assertVisible teamCase 8 (loadContext configuredApi teamCase 1 0) .read =
      .error "ticket.read_forbidden" := rfl
  rw [hrefused] at hread
  cases hread

/-- The member reads, and has listed, the case that it may plan. -/
theorem ownCase_nested :
    RightsNested teamCase (loadContext configuredApi teamCase 1 0)
      { id := 7, kind := .case, tenantId := 0, assignedTeamId := some 3 } := by
  apply (rightsNested_iff configuredApi teamCase 1 0
    { id := 7, kind := .case, tenantId := 0, assignedTeamId := some 3 } (by decide)).mpr
  intro user huser
  obtain rfl := Option.some.inj (huser : some _ = some user)
  right
  constructor
  · exact .inr ⟨rfl, .inr (.inl ⟨3, List.mem_singleton_self _, rfl⟩)⟩
  · intro hkind
    cases hkind

end Prequest.Visibility
