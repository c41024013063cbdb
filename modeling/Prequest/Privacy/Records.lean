import Prequest.Lib.Table
import Prequest.Visitors.Status

/-!
# Personal data and legal holds

The tables that the privacy module reads and writes. The rows that hold personal
data are one `Table Row`, the disjoint union of `persons`, `visitors`,
`audit_events`, `notifications` and `webhook_events`.

* `LegalHold`, `Store.Held`: the holds, and the rows that they cover.
-/

namespace Prequest.Privacy

open Prequest.Lib Prequest.Visitors

abbrev Uuid := Nat

/-! ## Categories -/

/-- The categories of `tenant_retention_settings`. -/
inductive DataCategory where
  | visitorRecords
  | personRefInPastRecords
  | auditEvents
  | webhookNotifications
  | emailNotifications
  | calendarEventContent
  | pastBookings
  | pastOrders
  | personalDataAccessLogs
  | personPreferences
  | visitorPhotosIds
  | cctvFootage
  | calendarAttendeesSnapshot
  | dailyListPdfs
  | ghostPersons
  | vendorUserData
  deriving DecidableEq, Repr

inductive LegalBasis where
  | legitimateInterest
  | contract
  | legalObligation
  | none
  deriving DecidableEq, Repr

inductive ResourceType where
  | persons
  | visitors
  | auditEvents
  | notifications
  | webhookEvents
  deriving DecidableEq, Repr

/-- `AnonymizeContext.reason`. -/
inductive Reason where
  | retention
  | erasureRequest
  | departureCleanup
  deriving DecidableEq, Repr

/-! ## Rows -/

/-- A row of `persons`. Times are seconds. -/
structure PersonRow where
  id : Uuid
  tenantId : Uuid
  firstName : String
  lastName : String
  email : Option String
  phone : Option String
  avatarUrl : Option String
  leftAt : Option Int
  anonymizedAt : Option Int
  anonymizedReason : Option Reason
  deriving DecidableEq

/-- A row of `visitors`. `visit_date` is a day, `expected_at` a time. The update that anonymizes a
row takes its `person_id` away, and nothing gives one to an existing row. -/
structure VisitorRow where
  id : Uuid
  tenantId : Uuid
  badgeId : Option String
  personId : Option Uuid
  hostPersonId : Uuid
  firstName : Option String
  lastName : Option String
  email : Option String
  phone : Option String
  company : Option String
  meetingRoomId : Option Uuid
  notesForVisitor : Option String
  notesForReception : Option String
  status : VisitorStatus
  visitDate : Int
  expectedAt : Option Int
  anonymizedAt : Option Int
  unlinked : anonymizedAt.isSome → personId = none
  deriving DecidableEq

/-- A row of `audit_events`. -/
structure AuditEventRow where
  id : Uuid
  tenantId : Uuid
  actorUserId : Option Uuid
  createdAt : Int
  details : List (String × String)
  ipAddress : Option String
  deriving DecidableEq

/-- A row of `notifications`. -/
structure NotificationRow where
  id : Uuid
  tenantId : Uuid
  recipientPersonId : Option Uuid
  createdAt : Int
  subject : Option String
  body : Option String
  deriving DecidableEq

/-- A row of `webhook_events`. -/
structure WebhookEventRow where
  id : Uuid
  tenantId : Uuid
  receivedAt : Int
  payload : String
  deriving DecidableEq

/-- A row of `users`: the bridge from an actor to a person. -/
structure UserRow where
  id : Uuid
  personId : Option Uuid
  deriving DecidableEq

inductive Row where
  | person (p : PersonRow)
  | visitor (v : VisitorRow)
  | auditEvent (e : AuditEventRow)
  | notification (n : NotificationRow)
  | webhookEvent (w : WebhookEventRow)
  deriving DecidableEq

def Row.resourceType : Row → ResourceType
  | .person _ => .persons
  | .visitor _ => .visitors
  | .auditEvent _ => .auditEvents
  | .notification _ => .notifications
  | .webhookEvent _ => .webhookEvents

def Row.id : Row → Uuid
  | .person p => p.id
  | .visitor v => v.id
  | .auditEvent e => e.id
  | .notification n => n.id
  | .webhookEvent w => w.id

def Row.tenantId : Row → Uuid
  | .person p => p.tenantId
  | .visitor v => v.tenantId
  | .auditEvent e => e.tenantId
  | .notification n => n.tenantId
  | .webhookEvent w => w.tenantId

instance : Keyed Row (ResourceType × Uuid) := ⟨fun r => (r.resourceType, r.id)⟩

theorem Row.key_eq (r : Row) : key r = (r.resourceType, r.id) := rfl

def ResourceType.category : ResourceType → DataCategory
  | .persons => .personRefInPastRecords
  | .visitors => .visitorRecords
  | .auditEvents => .auditEvents
  | .notifications => .emailNotifications
  | .webhookEvents => .webhookNotifications

def Row.category (r : Row) : DataCategory := r.resourceType.category

/-- The day of `coalesce(expected_at::date, visit_date)`. -/
def VisitorRow.day (v : VisitorRow) : Int := (v.expectedAt.map (· / 86400)).getD v.visitDate

/-- The column that a scan orders by. -/
def Row.age : Row → Int
  | .person p => p.leftAt.getD 0
  | .visitor v => v.day
  | .auditEvent e => e.createdAt
  | .notification n => n.createdAt
  | .webhookEvent w => w.receivedAt

/-- `coalesce((details->>'anonymized')::boolean, false)`. -/
def AuditEventRow.isAnonymized (e : AuditEventRow) : Bool :=
  e.details.lookup "anonymized" == some "true"

def Row.live : Row → Bool
  | .person p => p.anonymizedAt.isNone
  | .visitor v => v.anonymizedAt.isNone
  | .auditEvent e => !e.isAnonymized
  | .notification _ => true
  | .webhookEvent _ => true

def AuditEventRow.actorPerson (users : List UserRow) (e : AuditEventRow) : Option Uuid :=
  (e.actorUserId.bind fun a => users.find? (·.id == a)).bind (·.personId)

def Row.persons (users : List UserRow) : Row → List Uuid
  | .person p => [p.id]
  | .visitor v => v.personId.toList ++ [v.hostPersonId]
  | .auditEvent e => (e.actorPerson users).toList
  | .notification n => n.recipientPersonId.toList
  | .webhookEvent _ => []

def Row.visitorOf : Row → Option Uuid
  | .visitor v => v.personId
  | _ => none

variable {r : Row} {p : Uuid}

theorem Row.visitorOf_mem_persons {users : List UserRow}
    (h : r.visitorOf = some p) : p ∈ r.persons users := by
  cases r with
  | visitor v =>
    show p ∈ v.personId.toList ++ [v.hostPersonId]
    rw [show v.personId = some p from h]
    exact List.mem_cons_self
  | person | auditEvent | notification | webhookEvent => cases h

theorem Row.resourceType_of_visitorOf (h : r.visitorOf = some p) : r.resourceType = .visitors := by
  cases r with
  | visitor v => rfl
  | person | auditEvent | notification | webhookEvent => cases h

theorem Row.live_of_visitorOf (h : r.visitorOf = some p) : r.live = true := by
  cases r with
  | visitor v =>
    show v.anonymizedAt.isNone = true
    cases hanon : v.anonymizedAt with
    | none => rfl
    | some t =>
      have hnone : v.personId = none := v.unlinked (by rw [hanon]; rfl)
      rw [show v.personId = some p from h] at hnone
      cases hnone
  | person | auditEvent | notification | webhookEvent => cases h

def Row.bare : Row → Row
  | .visitor v =>
      .visitor { v with firstName := none, lastName := none, email := none, phone := none }
  | r => r

section Bare

variable (r : Row)

@[simp] theorem Row.key_bare : key r.bare = key r := by cases r <;> rfl

@[simp] theorem Row.resourceType_bare : r.bare.resourceType = r.resourceType := by cases r <;> rfl

@[simp] theorem Row.tenantId_bare : r.bare.tenantId = r.tenantId := by cases r <;> rfl

@[simp] theorem Row.age_bare : r.bare.age = r.age := by cases r <;> rfl

@[simp] theorem Row.live_bare : r.bare.live = r.live := by cases r <;> rfl

@[simp] theorem Row.persons_bare (users : List UserRow) : r.bare.persons users = r.persons users := by
  cases r <;> rfl

end Bare

/-! ## Legal holds -/

/-- `hold_type` with the column that it requires. -/
inductive HoldScope where
  | person (subjectPersonId : Uuid)
  | category (dataCategory : DataCategory)
  | tenantWide
  deriving DecidableEq, Repr

/-- A row of `legal_holds`. -/
structure LegalHold where
  id : Uuid
  tenantId : Uuid
  scope : HoldScope
  expiresAt : Option Int
  releasedAt : Option Int
  deriving DecidableEq, Repr

/-- `released_at is null and (expires_at is null or expires_at > now())`. -/
def LegalHold.active (h : LegalHold) (now : Int) : Bool :=
  h.releasedAt.isNone && h.expiresAt.all fun t => now < t

/-- A row of `anonymization_audit`. The payload is the row as it was. -/
structure Snapshot where
  tenantId : Uuid
  dataCategory : DataCategory
  resourceType : ResourceType
  resourceId : Uuid
  payload : Row
  reason : Reason
  deriving DecidableEq

inductive DsrStatus where
  | pending
  | inProgress
  | completed
  | denied
  | partiallyDone
  deriving DecidableEq, Repr

/-- A row of `data_subject_requests`, of type `erasure`. -/
structure DsrRow where
  id : Uuid
  tenantId : Uuid
  subjectPersonId : Uuid
  status : DsrStatus
  deriving DecidableEq, Repr

instance : Keyed DsrRow Uuid := ⟨DsrRow.id⟩

/-- The database. -/
structure Store where
  rows : Table Row
  users : List UserRow
  legalHolds : List LegalHold
  retentionDays : Uuid → DataCategory → Option Int
  anonymizationAudit : List Snapshot
  requests : Table DsrRow

namespace Store

variable (s : Store) (now : Int) (tenantId : Uuid)

def hasTenantWideHold : Bool :=
  s.legalHolds.any fun h => h.tenantId == tenantId && h.scope == .tenantWide && h.active now

def hasCategoryHold (category : DataCategory) : Bool :=
  s.legalHolds.any fun h => h.tenantId == tenantId && h.scope == .category category && h.active now

def hasPersonHold (personId : Uuid) : Bool :=
  s.legalHolds.any fun h => h.tenantId == tenantId && h.scope == .person personId && h.active now

/-- `heldPersonIds`. -/
def heldPersonIds : List Uuid :=
  s.legalHolds.filterMap fun h =>
    if h.tenantId == tenantId && h.active now then
      match h.scope with
      | .person p => some p
      | _ => none
    else none

theorem mem_heldPersonIds {p : Uuid} :
    p ∈ s.heldPersonIds now tenantId ↔ s.hasPersonHold now tenantId p = true := by
  unfold heldPersonIds hasPersonHold
  rw [List.mem_filterMap, List.any_eq_true]
  refine exists_congr fun h => and_congr_right fun _ => ?_
  cases hscope : h.scope with
  | person q => simp [and_comm, and_assoc]
  | category c => simp
  | tenantWide => simp

/-- The row is under an active hold: on its tenant, on its category, or on a person that it refers
to. -/
def Held (r : Row) : Prop :=
  s.hasTenantWideHold now r.tenantId = true ∨ s.hasCategoryHold now r.tenantId r.category = true ∨
    ∃ p ∈ r.persons s.users, s.hasPersonHold now r.tenantId p = true

instance (r : Row) : Decidable (s.Held now r) :=
  inferInstanceAs (Decidable (_ ∨ _ ∨ ∃ p ∈ r.persons s.users, _))

end Store

end Prequest.Privacy
