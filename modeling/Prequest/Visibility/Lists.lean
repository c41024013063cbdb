import Mathlib.Data.List.Dedup
import Prequest.Lib.Scope
import Prequest.Lib.Table
import Prequest.Sla.Timer

/-!
# The visibility lists

The rows that decide who may see a case or a work order, and the functions of
the database that list the identifiers an actor may see.

The answers of `user_has_permission` are a parameter, `VisibilityDb.hasPermission`.
-/

namespace Prequest.Visibility

open Prequest.Lib Prequest.Sla

/-! ## Rows -/

abbrev Uuid := Nat

/-- A row of `users`. `auth_uid` is unique. -/
structure UserRow where
  id : Uuid
  tenantId : Uuid
  personId : Option Uuid
  authUid : Option Uuid
  deriving DecidableEq, Repr

instance : Keyed UserRow Uuid where
  key := UserRow.id

/-- A row of `team_members`. -/
structure TeamMember where
  tenantId : Uuid
  teamId : Uuid
  userId : Uuid
  deriving DecidableEq, Repr

/-- A row of `user_role_assignments`. -/
structure RoleAssignment where
  tenantId : Uuid
  userId : Uuid
  domainScope : Option (List String)
  locationScope : Option (List Uuid)
  readOnlyCrossDomain : Bool
  active : Bool
  deriving DecidableEq, Repr

/-- A row of `spaces`. -/
structure SpaceRow where
  id : Uuid
  parentId : Option Uuid
  deriving DecidableEq, Repr

/-- A row of `request_types`. -/
structure RequestTypeRow where
  id : Uuid
  tenantId : Uuid
  domain : Option String
  deriving DecidableEq, Repr

instance : Keyed RequestTypeRow Uuid where
  key := RequestTypeRow.id

/-- A row of `tickets` or of `work_orders`. -/
structure TicketRow where
  id : Uuid
  kind : EntityKind
  tenantId : Uuid
  ticketTypeId : Option Uuid := none
  requesterPersonId : Option Uuid := none
  assignedUserId : Option Uuid := none
  assignedTeamId : Option Uuid := none
  assignedVendorId : Option Uuid := none
  watchers : Option (List Uuid) := none
  locationId : Option Uuid := none
  parentTicketId : Option Uuid := none
  deriving DecidableEq, Repr

instance : Keyed TicketRow Uuid where
  key := TicketRow.id

/-- The rows. Cases and work orders share their identifiers. -/
structure VisibilityDb where
  users : Table UserRow := Table.empty
  teamMembers : List TeamMember := []
  roleAssignments : List RoleAssignment := []
  spaces : List SpaceRow := []
  requestTypes : Table RequestTypeRow := Table.empty
  entities : Table TicketRow := Table.empty
  /-- `user_has_permission`. -/
  hasPermission : Uuid → Uuid → String → Bool := fun _ _ _ => false

/-! ## Spaces -/

/-- The spaces with a parent among `ids`. -/
def childSpaces (spaces : List SpaceRow) (ids : List Uuid) : List Uuid :=
  ids.flatMap fun id => (spaces.filter fun s => s.parentId == some id).map SpaceRow.id

/-- The rows of `chain` at a depth. -/
def chain (spaces : List SpaceRow) (roots : List Uuid) : Nat → List Uuid
  | 0 => roots
  | depth + 1 => childSpaces spaces (chain spaces roots depth)

/-- `expand_space_closure`. -/
def expandSpaceClosure (spaces : List SpaceRow) (roots : List Uuid) : List Uuid :=
  ((List.range 21).flatMap (chain spaces roots)).dedup

theorem mem_expandSpaceClosure_of_root {spaces : List SpaceRow} {roots : List Uuid} {id : Uuid}
    (h : id ∈ roots) : id ∈ expandSpaceClosure spaces roots := by
  unfold expandSpaceClosure
  rw [List.mem_dedup, List.mem_flatMap]
  exact ⟨0, by decide, h⟩

/-! ## Lists -/

/-- `a = b` is true of two nullable columns. -/
def sqlEq (a b : Option Uuid) : Prop := ∃ id, a = some id ∧ b = some id

instance (a b : Option Uuid) : Decidable (sqlEq a b) :=
  decidable_of_iff (a.isSome ∧ a = b) <| by
    unfold sqlEq
    cases a with
    | none => simp
    | some id => simp [eq_comm]

section

variable (db : VisibilityDb)

/-- `team_ids`. -/
def VisibilityDb.teamIds (userId tenantId : Uuid) : List Uuid :=
  (db.teamMembers.filter fun tm => tm.tenantId == tenantId && tm.userId == userId).map
    TeamMember.teamId

/-- `role_paths`. -/
def VisibilityDb.rolePaths (userId tenantId : Uuid) : List RoleAssignment :=
  db.roleAssignments.filter fun ura =>
    ura.userId == userId && ura.tenantId == tenantId && ura.active

/-- `role_location_closures`. -/
def VisibilityDb.roleScope (r : RoleAssignment) : Scope String Uuid where
  domains := r.domainScope.getD []
  locations :=
    match r.locationScope.getD [] with
    | [] => []
    | roots => expandSpaceClosure db.spaces roots

def VisibilityDb.domainOf (e : TicketRow) : Option String :=
  (e.ticketTypeId.bind db.requestTypes.get?).bind RequestTypeRow.domain

def VisibilityDb.tenantDomainOf (tenantId : Uuid) (e : TicketRow) :
    Option String :=
  ((e.ticketTypeId.bind db.requestTypes.get?).filter fun rt => rt.tenantId == tenantId).bind
    RequestTypeRow.domain

end

def IsParticipant (user : UserRow) (e : TicketRow) : Prop :=
  sqlEq e.requesterPersonId user.personId ∨ e.assignedUserId = some user.id ∨
    ∃ person ∈ e.watchers.getD [], user.personId = some person

instance (user : UserRow) (e : TicketRow) : Decidable (IsParticipant user e) := by
  unfold IsParticipant
  infer_instance

def TeamReaches (teamIds : List Uuid) (e : TicketRow) : Prop :=
  ∃ team ∈ teamIds, e.assignedTeamId = some team

instance (teamIds : List Uuid) (e : TicketRow) : Decidable (TeamReaches teamIds e) := by
  unfold TeamReaches
  infer_instance

def ScopeReaches (scopes : List (Scope String Uuid)) (domain : Option String) (e : TicketRow) :
    Prop :=
  ∃ s ∈ scopes, s.Covers domain e.locationId

instance (scopes : List (Scope String Uuid)) (domain : Option String) (e : TicketRow) :
    Decidable (ScopeReaches scopes domain e) := by
  unfold ScopeReaches
  infer_instance

def VisibilityDb.actor? (db : VisibilityDb) (userId tenantId : Uuid) : Option UserRow :=
  (db.users.get? userId).filter fun u => u.tenantId == tenantId

/-- The two lists of the readers have one text, over two tables. -/
def visibilityIds (kind : EntityKind) (db : VisibilityDb) (userId tenantId : Uuid) : List Uuid :=
  match db.actor? userId tenantId with
  | none => []
  | some actor =>
      (db.entities.rows.filter fun e =>
        decide (e.kind = kind ∧ e.tenantId = tenantId ∧
          (IsParticipant actor e ∨ TeamReaches (db.teamIds userId tenantId) e ∨
            ScopeReaches ((db.rolePaths userId tenantId).map db.roleScope) (db.domainOf e)
              e))).map TicketRow.id

/-- `ticket_visibility_ids`. -/
def ticketVisibilityIds : VisibilityDb → Uuid → Uuid → List Uuid := visibilityIds .case

/-- `work_order_visibility_ids`. -/
def workOrderVisibilityIds : VisibilityDb → Uuid → Uuid → List Uuid := visibilityIds .workOrder

/-- `work_orders_visible_to_operator`. It leaves out requesters, watchers and roles that only read,
and takes request types of the tenant only. -/
def workOrdersVisibleToOperator (db : VisibilityDb) (userId tenantId : Uuid) : List Uuid :=
  match db.actor? userId tenantId with
  | none => []
  | some actor =>
      (db.entities.rows.filter fun e =>
        decide (e.kind = .workOrder ∧ e.tenantId = tenantId ∧
          (e.assignedUserId = some actor.id ∨ TeamReaches (db.teamIds userId tenantId) e ∨
            ScopeReaches
              (((db.rolePaths userId tenantId).filter fun r => !r.readOnlyCrossDomain).map
                db.roleScope)
              (db.tenantDomainOf tenantId e) e))).map TicketRow.id

variable {db : VisibilityDb} {userId tenantId : Uuid} {actor : UserRow} {e : TicketRow}

theorem mem_visibilityIds (hactor : db.actor? userId tenantId = some actor)
    (he : e ∈ db.entities.rows) :
    e.id ∈ visibilityIds e.kind db userId tenantId ↔
      e.tenantId = tenantId ∧
        (IsParticipant actor e ∨ TeamReaches (db.teamIds userId tenantId) e ∨
          ScopeReaches ((db.rolePaths userId tenantId).map db.roleScope) (db.domainOf e) e) := by
  unfold visibilityIds
  rw [hactor]
  simp only [List.mem_map, List.mem_filter, decide_eq_true_eq]
  constructor
  · rintro ⟨x, ⟨hx, _, htenant, hreach⟩, hid⟩
    obtain rfl := db.entities.eq_of_key_eq hx he hid
    exact ⟨htenant, hreach⟩
  · rintro ⟨htenant, hreach⟩
    exact ⟨e, ⟨he, rfl, htenant, hreach⟩, rfl⟩

theorem mem_workOrdersVisibleToOperator (hactor : db.actor? userId tenantId = some actor)
    (he : e ∈ db.entities.rows) (hkind : e.kind = .workOrder) :
    e.id ∈ workOrdersVisibleToOperator db userId tenantId ↔
      e.tenantId = tenantId ∧
        (e.assignedUserId = some actor.id ∨ TeamReaches (db.teamIds userId tenantId) e ∨
          ScopeReaches
            (((db.rolePaths userId tenantId).filter fun r => !r.readOnlyCrossDomain).map
              db.roleScope)
            (db.tenantDomainOf tenantId e) e) := by
  unfold workOrdersVisibleToOperator
  rw [hactor]
  simp only [List.mem_map, List.mem_filter, decide_eq_true_eq]
  constructor
  · rintro ⟨x, ⟨hx, _, htenant, hreach⟩, hid⟩
    obtain rfl := db.entities.eq_of_key_eq hx he hid
    exact ⟨htenant, hreach⟩
  · rintro ⟨htenant, hreach⟩
    exact ⟨e, ⟨he, hkind, htenant, hreach⟩, rfl⟩

end Prequest.Visibility
