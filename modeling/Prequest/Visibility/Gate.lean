import Prequest.Visibility.Lists

/-!
# The visibility gate

`TicketVisibilityService` decides about one row. It loads the teams and the role
assignments of the actor through the data API, expands each location scope with
`expand_space_closure`, and compares the row with what it got. A response of the
data API has at most `max_rows` rows.
-/

namespace Prequest.Visibility

open Prequest.Lib Prequest.Sla

/-! ## The actor -/

structure DataApi where
  maxRows : Nat
  maxRows_pos : 0 < maxRows
  arrange : List Uuid → List Uuid
  arrange_perm : ∀ ids, (arrange ids).Perm ids

def DataApi.page (api : DataApi) {α : Type} (rows : List α) : List α := rows.take api.maxRows

theorem DataApi.page_subset (api : DataApi) {α : Type} (rows : List α) : api.page rows ⊆ rows :=
  List.take_subset _ _

/-- `RoleAssignmentCtx`. -/
structure RoleAssignmentCtx where
  domainScope : List String
  locationScopeClosure : List Uuid
  readOnlyCrossDomain : Bool
  deriving DecidableEq, Repr

def RoleAssignmentCtx.scope (role : RoleAssignmentCtx) : Scope String Uuid where
  domains := role.domainScope
  locations := role.locationScopeClosure

/-- `VisibilityContext`. The `user_id` of an unknown user is the empty string. -/
structure VisibilityContext where
  userId : Option Uuid
  personId : Option Uuid
  tenantId : Uuid
  teamIds : List Uuid
  roleAssignments : List RoleAssignmentCtx
  vendorId : Option Uuid := none
  hasReadAll : Bool
  hasWriteAll : Bool
  deriving DecidableEq, Repr

/-- `expandLocationClosure`. -/
def expandLocationClosure (api : DataApi) (spaces : List SpaceRow) (rootIds : List Uuid) :
    List Uuid :=
  match rootIds with
  | [] => []
  | roots => api.page (api.arrange (expandSpaceClosure spaces roots))

def loadRole (api : DataApi) (spaces : List SpaceRow) (r : RoleAssignment) : RoleAssignmentCtx where
  domainScope := r.domainScope.getD []
  locationScopeClosure := expandLocationClosure api spaces (r.locationScope.getD [])
  readOnlyCrossDomain := r.readOnlyCrossDomain

def VisibilityDb.userOf (db : VisibilityDb) (authUid tenantId : Uuid) : Option UserRow :=
  db.users.rows.find? fun u => u.tenantId == tenantId && u.authUid == some authUid

def contextOf (api : DataApi) (db : VisibilityDb) (user : UserRow) (tenantId : Uuid) :
    VisibilityContext where
  userId := some user.id
  personId := user.personId
  tenantId := tenantId
  teamIds := api.page (db.teamIds user.id tenantId)
  roleAssignments := (api.page (db.rolePaths user.id tenantId)).map (loadRole api db.spaces)
  hasReadAll := db.hasPermission user.id tenantId "tickets.read_all"
  hasWriteAll := db.hasPermission user.id tenantId "tickets.write_all"

/-- `loadContext`. An unknown user gets a context that matches nothing. -/
def loadContext (api : DataApi) (db : VisibilityDb) (authUid tenantId : Uuid) :
    VisibilityContext :=
  match db.userOf authUid tenantId with
  | none =>
      { userId := none, personId := none, tenantId := tenantId, teamIds := []
        roleAssignments := [], hasReadAll := false, hasWriteAll := false }
  | some user => contextOf api db user tenantId

/-! ## The row -/

/-- `TicketForVisibility`. -/
structure TicketForVisibility where
  requesterPersonId : Option Uuid
  assignedUserId : Option Uuid
  assignedTeamId : Option Uuid
  assignedVendorId : Option Uuid
  watchers : List Uuid
  locationId : Option Uuid
  domain : Option String
  parentAssignedTeamId : Option Uuid
  deriving DecidableEq, Repr

section

variable (db : VisibilityDb) (tenantId : Uuid) (e : TicketRow)

def VisibilityDb.parentTeamOf : Option Uuid :=
  ((e.parentTicketId.bind db.entities.get?).filter fun p =>
    p.kind == .case && p.tenantId == tenantId).bind TicketRow.assignedTeamId

/-- The domain that the service looks up. The query of a case embeds the request type; the one of a
work order is asked for with the tenant. -/
def VisibilityDb.gateDomainOf :
    Option String :=
  match e.kind with
  | .case => db.domainOf e
  | .workOrder => db.tenantDomainOf tenantId e

/-- The row as the service has it. -/
def VisibilityDb.forVisibility :
    TicketForVisibility where
  requesterPersonId := e.requesterPersonId
  assignedUserId := e.assignedUserId
  assignedTeamId := e.assignedTeamId
  assignedVendorId := e.assignedVendorId
  watchers := e.watchers.getD []
  locationId := e.locationId
  domain := db.gateDomainOf tenantId e
  parentAssignedTeamId := db.parentTeamOf tenantId e

end

/-- `loadTicketRow`. -/
def loadTicketRow (db : VisibilityDb) (ticketId tenantId : Uuid) : Option TicketForVisibility :=
  ((db.entities.get? ticketId).filter fun e => e.tenantId == tenantId).map
    (db.forVisibility tenantId)

/-! ## The gates -/

inductive Mode where
  | read
  | write
  deriving DecidableEq, Repr

/-- `a && row.x === a`: two identifiers that are there and are the same. -/
def sameId (a b : Option Uuid) : Bool := a.isSome && a == b

def participantMatch (row : TicketForVisibility) (ctx : VisibilityContext) : Bool :=
  sameId ctx.personId row.requesterPersonId || sameId ctx.userId row.assignedUserId ||
    (match ctx.personId with
      | none => false
      | some person => row.watchers.contains person) ||
    sameId ctx.vendorId row.assignedVendorId

def roleMatches (role : RoleAssignmentCtx) (domain : Option String) (locationId : Option Uuid) :
    Bool :=
  (role.domainScope.isEmpty ||
    (match domain with
      | none => false
      | some d => role.domainScope.contains d)) &&
  (role.locationScopeClosure.isEmpty ||
    (match locationId with
      | none => true
      | some l => role.locationScopeClosure.contains l))

def inTeams (ctx : VisibilityContext) (team : Option Uuid) : Bool :=
  match team with
  | none => false
  | some t => ctx.teamIds.contains t

/-- The code of a refusal. -/
def forbidden (mode : Mode) : String :=
  match mode with
  | .read => "ticket.read_forbidden"
  | .write => "ticket.write_forbidden"

/-- `assertVisible`. -/
def assertVisible (db : VisibilityDb) (ticketId : Uuid) (ctx : VisibilityContext) (mode : Mode) :
    Except String Unit :=
  if mode = .read ∧ ctx.hasReadAll then .ok ()
  else if mode = .write ∧ ctx.hasWriteAll then .ok ()
  else match loadTicketRow db ticketId ctx.tenantId with
    | none => .error "ticket.read_forbidden"
    | some row =>
        if participantMatch row ctx then .ok ()
        else if inTeams ctx row.assignedTeamId && mode == .write then .ok ()
        else
          let matchingRoles := ctx.roleAssignments.filter fun role =>
            roleMatches role row.domain row.locationId
          let accepted :=
            match mode with
            | .read => inTeams ctx row.assignedTeamId || !matchingRoles.isEmpty
            | .write =>
                inTeams ctx row.assignedTeamId ||
                  matchingRoles.any fun role => !role.readOnlyCrossDomain
          if accepted then .ok () else .error (forbidden mode)

/-- `canPlanRow`. -/
def canPlanRow (row : TicketForVisibility) (ctx : VisibilityContext) : Bool :=
  ctx.hasWriteAll || sameId row.assignedUserId ctx.userId ||
    sameId ctx.vendorId row.assignedVendorId ||
    ([row.assignedTeamId, row.parentAssignedTeamId].any (inTeams ctx)) ||
    ctx.roleAssignments.any fun role =>
      !role.readOnlyCrossDomain && roleMatches role row.domain row.locationId

/-- `assertCanPlan`. -/
def assertCanPlan (db : VisibilityDb) (ticketId : Uuid) (ctx : VisibilityContext) :
    Except String Unit :=
  if ctx.hasWriteAll then .ok ()
  else match loadTicketRow db ticketId ctx.tenantId with
    | none => .error "ticket.plan_forbidden"
    | some row => if canPlanRow row ctx then .ok () else .error "ticket.plan_forbidden"

/-! ## What the gates accept -/

section Accepts

variable {api : DataApi} {db : VisibilityDb} {user : UserRow} {tenantId : Uuid} {e : TicketRow}
  {ctx : VisibilityContext} {domain : Option String}

theorem sameId_iff {a b : Option Uuid} : sameId a b = true ↔ sqlEq b a := by
  unfold sameId sqlEq
  rw [Bool.and_eq_true, beq_iff_eq]
  constructor
  · rintro ⟨hsome, rfl⟩
    obtain ⟨id, hid⟩ := Option.isSome_iff_exists.mp hsome
    exact ⟨id, hid, hid⟩
  · rintro ⟨id, rfl, rfl⟩
    exact ⟨rfl, rfl⟩

theorem contains_iff {xs : List Uuid} {x : Uuid} :
    xs.contains x = true ↔ ∃ y ∈ xs, some x = some y := by
  rw [List.contains_iff_mem]
  constructor
  · intro h
    exact ⟨x, h, rfl⟩
  · rintro ⟨y, hy, hxy⟩
    rw [Option.some.inj hxy]
    exact hy

theorem participantMatch_iff :
    participantMatch (db.forVisibility tenantId e) (contextOf api db user tenantId) = true ↔
      IsParticipant user e := by
  unfold participantMatch IsParticipant
  have hvendor : sameId (contextOf api db user tenantId).vendorId e.assignedVendorId = false := rfl
  have huser : sameId (some user.id) e.assignedUserId = true ↔ e.assignedUserId = some user.id := by
    rw [sameId_iff]
    constructor
    · rintro ⟨id, hid, huser⟩
      rw [hid, huser]
    · intro hid
      exact ⟨user.id, hid, rfl⟩
  have hwatchers : (match user.personId with
      | none => false
      | some person => (e.watchers.getD []).contains person) = true ↔
      ∃ person ∈ e.watchers.getD [], user.personId = some person := by
    cases user.personId with
    | none => simp
    | some person => exact contains_iff
  show (sameId user.personId e.requesterPersonId || sameId (some user.id) e.assignedUserId ||
    (match user.personId with
      | none => false
      | some person => (e.watchers.getD []).contains person) ||
    sameId (contextOf api db user tenantId).vendorId e.assignedVendorId) = true ↔ _
  rw [hvendor, Bool.or_false, Bool.or_eq_true, Bool.or_eq_true, huser, hwatchers, sameId_iff,
    or_assoc]

theorem roleMatches_iff {role : RoleAssignmentCtx} {locationId : Option Uuid} :
    roleMatches role domain locationId = true ↔ role.scope.Covers domain locationId := by
  unfold roleMatches Scope.Covers RoleAssignmentCtx.scope
  rw [Bool.and_eq_true, Bool.or_eq_true, Bool.or_eq_true, List.isEmpty_iff, List.isEmpty_iff]
  apply and_congr
  · apply or_congr Iff.rfl
    cases domain with
    | none => simp
    | some d => simp
  · apply or_congr Iff.rfl
    cases locationId with
    | none => simp
    | some l => simp

theorem inTeams_iff {team : Option Uuid} :
    inTeams ctx team = true ↔ ∃ t ∈ ctx.teamIds, team = some t := by
  unfold inTeams
  cases team with
  | none => simp
  | some t => exact contains_iff

def RoleReaches (ctx : VisibilityContext) (domain : Option String) (e : TicketRow) : Prop :=
  ∃ role ∈ ctx.roleAssignments, role.scope.Covers domain e.locationId

def WritableRoleReaches (ctx : VisibilityContext) (domain : Option String) (e : TicketRow) : Prop :=
  ∃ role ∈ ctx.roleAssignments, role.readOnlyCrossDomain = false ∧
    role.scope.Covers domain e.locationId

theorem WritableRoleReaches.roleReaches (h : WritableRoleReaches ctx domain e) :
    RoleReaches ctx domain e := by
  obtain ⟨role, hrole, _, hcovers⟩ := h
  exact ⟨role, hrole, hcovers⟩

theorem loadTicketRow_of_mem (he : e ∈ db.entities.rows) (htenant : e.tenantId = tenantId) :
    loadTicketRow db e.id tenantId = some (db.forVisibility tenantId e) := by
  unfold loadTicketRow
  rw [show db.entities.get? e.id = some e from Table.get?_of_mem he]
  simp [htenant]

theorem loadTicketRow_of_foreign (he : e ∈ db.entities.rows) (htenant : e.tenantId ≠ tenantId) :
    loadTicketRow db e.id tenantId = none := by
  unfold loadTicketRow
  rw [show db.entities.get? e.id = some e from Table.get?_of_mem he]
  simp [htenant]

def VisibilityContext.hasAll (ctx : VisibilityContext) : Mode → Bool
  | .read => ctx.hasReadAll
  | .write => ctx.hasWriteAll

def rolesAccept (matchingRoles : List RoleAssignmentCtx) : Mode → Bool
  | .read => !matchingRoles.isEmpty
  | .write => matchingRoles.any fun role => !role.readOnlyCrossDomain

theorem assertVisible_iff (he : e ∈ db.entities.rows) (mode : Mode) :
    assertVisible db e.id (contextOf api db user tenantId) mode = .ok () ↔
      (contextOf api db user tenantId).hasAll mode = true ∨ e.tenantId = tenantId ∧
        (IsParticipant user e ∨ TeamReaches (contextOf api db user tenantId).teamIds e ∨
          rolesAccept ((contextOf api db user tenantId).roleAssignments.filter fun role =>
            roleMatches role (db.gateDomainOf tenantId e) e.locationId) mode = true) := by
  generalize hctx : contextOf api db user tenantId = ctx
  have htenantId : ctx.tenantId = tenantId := by rw [← hctx]; rfl
  have hrow : assertVisible db e.id ctx mode = if ctx.hasAll mode then .ok () else
      match loadTicketRow db e.id tenantId with
      | none => .error "ticket.read_forbidden"
      | some row =>
        if participantMatch row ctx then .ok ()
        else if inTeams ctx row.assignedTeamId || rolesAccept (ctx.roleAssignments.filter fun role =>
          roleMatches role row.domain row.locationId) mode then .ok ()
        else .error (forbidden mode) := by
    unfold assertVisible
    rw [htenantId]
    cases mode with
    | read => simp [VisibilityContext.hasAll, rolesAccept]
    | write =>
      cases hall : ctx.hasWriteAll with
      | true => simp [VisibilityContext.hasAll, hall]
      | false =>
        cases loadTicketRow db e.id tenantId with
        | none => simp [VisibilityContext.hasAll, hall]
        | some row =>
          cases hin : inTeams ctx row.assignedTeamId <;>
            simp [VisibilityContext.hasAll, rolesAccept, hall, hin]
  have hteam : inTeams ctx e.assignedTeamId = true ↔ TeamReaches ctx.teamIds e := inTeams_iff
  have hparticipant : participantMatch (db.forVisibility tenantId e) ctx = true ↔
      IsParticipant user e := by
    rw [← hctx]
    exact participantMatch_iff
  rw [hrow, ← hteam, ← hparticipant]
  by_cases hall : ctx.hasAll mode = true
  · simp [hall]
  · by_cases htenant : e.tenantId = tenantId
    · rw [loadTicketRow_of_mem he htenant, if_neg hall, or_iff_right hall, and_iff_right htenant]
      show (if participantMatch (db.forVisibility tenantId e) ctx then Except.ok ()
        else if inTeams ctx e.assignedTeamId || rolesAccept (ctx.roleAssignments.filter fun role =>
          roleMatches role (db.gateDomainOf tenantId e) e.locationId) mode then .ok ()
        else .error (forbidden mode)) = Except.ok () ↔ _
      cases participantMatch (db.forVisibility tenantId e) ctx <;>
        cases inTeams ctx e.assignedTeamId <;> simp
    · rw [loadTicketRow_of_foreign he htenant]
      simp [hall, htenant]

theorem assertVisible_read_iff (he : e ∈ db.entities.rows) :
    assertVisible db e.id (contextOf api db user tenantId) .read = .ok () ↔
      (contextOf api db user tenantId).hasReadAll = true ∨ e.tenantId = tenantId ∧
        (IsParticipant user e ∨
          TeamReaches (contextOf api db user tenantId).teamIds e ∨
          RoleReaches (contextOf api db user tenantId) (db.gateDomainOf tenantId e) e) := by
  have hroles : rolesAccept ((contextOf api db user tenantId).roleAssignments.filter fun role =>
      roleMatches role (db.gateDomainOf tenantId e) e.locationId) .read = true ↔
      RoleReaches (contextOf api db user tenantId) (db.gateDomainOf tenantId e) e := by
    unfold RoleReaches rolesAccept
    simp only [Bool.not_eq_true', List.isEmpty_eq_false_iff_exists_mem, List.mem_filter,
      roleMatches_iff]
  rw [assertVisible_iff he, hroles]
  rfl

end Accepts

end Prequest.Visibility
