import Prequest.Privacy.Records

/-!
# The category adapters

An adapter knows which rows of its category have expired, which ones belong to a
person, and how they are anonymized or deleted.
-/

namespace Prequest.Privacy

open Prequest.Lib Prequest.Visitors

/-- The settings of the process, and the hash behind `personPlaceholder`. -/
structure Env where
  nightlyCap : Int
  chunkSize : Nat
  chunkSize_pos : 0 < chunkSize
  personPlaceholder : Uuid → String

theorem defaultChunk_pos : 0 < 1000 := by decide

/-- The settings that hold without environment variables, with some hash. -/
def defaultEnv : Env where
  nightlyCap := 50000
  chunkSize := 1000
  chunkSize_pos := defaultChunk_pos
  personPlaceholder _ := "#0a1b2c3d"

/-- `EntityRef`. No `subjectPersonIds` are an empty list. -/
structure EntityRef where
  category : DataCategory
  resourceType : ResourceType
  resourceId : Uuid
  tenantId : Uuid
  subjectPersonIds : List Uuid := []
  deriving DecidableEq, Repr

def EntityRef.key (ref : EntityRef) : ResourceType × Uuid := (ref.resourceType, ref.resourceId)

/-! ## Reading -/

structure RowOrder where
  arrange : List Row → List Row
  arrange_perm : ∀ rows, (arrange rows).Perm rows

/-- An order that follows an `order by`. -/
structure ScanOrder extends RowOrder where
  sorted : ∀ rows, (arrange rows).Pairwise fun a b => a.age ≤ b.age

/-- The `limit` of the scans. -/
@[irreducible] def scanLimit : Nat := 100000

/-- `select … where`. -/
def Store.select (s : Store) (order : RowOrder) (p : Row → Bool) : List Row :=
  order.arrange (s.rows.rows.filter p)

theorem Store.mem_select {s : Store} {order : RowOrder} {p : Row → Bool} {r : Row} :
    r ∈ s.select order p ↔ r ∈ s.rows.rows ∧ p r = true := by
  unfold select
  rw [(order.arrange_perm _).mem_iff, List.mem_filter]

/-- The person columns that a scan selects. The adapter of `persons` selects none. -/
def Row.subjectPersonIds (users : List UserRow) : Row → List Uuid
  | .person _ => []
  | r => r.persons users

/-! ## The interface -/

/-- `DataCategoryAdapter`. `expired` is the condition of its scan, and `belongsTo` the condition of
`erasureRefs`. -/
structure Adapter where
  category : DataCategory
  legalBasis : LegalBasis
  expired : Int → Int → Row → Bool
  belongsTo : List UserRow → Uuid → Row → Bool
  erasureLimit : Option Nat
  anonymize : Env → List EntityRef → Reason → Int → Store → Store
  hardDelete : List EntityRef → Store → Store

namespace Adapter

variable (a : Adapter)

def scanRef (users : List UserRow) (r : Row) : EntityRef where
  category := a.category
  resourceType := r.resourceType
  resourceId := r.id
  tenantId := r.tenantId
  subjectPersonIds := r.subjectPersonIds users

/-- `scanForExpired`. -/
def scanForExpired (order : ScanOrder) (s : Store) (tenantId : Uuid) (retentionDays now : Int) :
    List EntityRef :=
  if retentionDays ≤ 0 then []
  else
    ((s.select order.toRowOrder fun r =>
      r.tenantId == tenantId && a.expired retentionDays now r).take scanLimit).map
        (a.scanRef s.users)

/-- A reference to a row of a person. -/
def erasureRef (r : Row) : EntityRef where
  category := a.category
  resourceType := r.resourceType
  resourceId := r.id
  tenantId := r.tenantId

/-- The rows of a person that `erasureRefs` reads. -/
def erasureRows (order : RowOrder) (s : Store) (tenantId personId : Uuid) : List Row :=
  let rows := s.select order fun r => r.tenantId == tenantId && a.belongsTo s.users personId r
  match a.erasureLimit with
  | some n => rows.take n
  | none => rows

/-- `erasureRefs`. -/
def erasureRefs (order : RowOrder) (s : Store) (tenantId personId : Uuid) : List EntityRef :=
  (a.erasureRows order s tenantId personId).map a.erasureRef

end Adapter

/-! ## Writing -/

/-- `tenant_id = $1 and id = any($2)`, of one table. -/
def Row.among (table : ResourceType) (tenantId : Uuid) (ids : List Uuid) (r : Row) : Bool :=
  r.resourceType == table && r.tenantId == tenantId && ids.contains r.id

/-- `snapshotTx`. An erasure leaves no copy behind. -/
def snapshotTx (category : DataCategory) (tenantId : Uuid) (originals : List Row) (reason : Reason)
    (s : Store) : Store :=
  match reason with
  | .erasureRequest => s
  | .retention | .departureCleanup =>
      { s with
        anonymizationAudit := s.anonymizationAudit ++ originals.map fun r =>
          { tenantId, dataCategory := category, resourceType := r.resourceType, resourceId := r.id,
            payload := r, reason } }

def VisitorRow.anonymize (now : Int) (v : VisitorRow) : VisitorRow :=
  { v with
    badgeId := none
    personId := none
    firstName := none
    lastName := none
    email := none
    phone := none
    company := none
    meetingRoomId := none
    notesForVisitor := none
    notesForReception := none
    anonymizedAt := some now
    unlinked := fun _ => rfl }

/-- `REDACT_KEYS`. -/
def redactKeys : List String :=
  ["actor_email", "actor_phone", "actor_ip", "subject_email", "subject_phone", "subject_ip",
    "email", "phone", "ip", "ip_address", "ip_hash"]

/-- A value of `details` is replaced when its key is to be redacted. -/
def redact (entry : String × String) : String × String :=
  if redactKeys.contains entry.1 then (entry.1, "<redacted>") else entry

def AuditEventRow.anonymize (e : AuditEventRow) : AuditEventRow :=
  { e with
    details := ("anonymized", "true") :: (e.details.map redact).filter (·.1 != "anonymized")
    ipAddress := none }

section

variable (env : Env) (reason : Reason) (now : Int)

def PersonRow.anonymize (p : PersonRow) : PersonRow :=
  { p with
    firstName := "Former employee"
    lastName := env.personPlaceholder p.id
    email := none
    phone := none
    avatarUrl := none
    anonymizedAt := some now
    anonymizedReason := some reason }

/-- The `SET` clauses, by table. -/
def Row.anonymize : Row → Row
  | .person p => .person (p.anonymize env reason now)
  | .visitor v => .visitor (v.anonymize now)
  | .auditEvent e => .auditEvent e.anonymize
  | r => r

def anonymizeRow : Table.Assignment Row where
  apply := Row.anonymize env reason now
  key_apply r := by cases r <;> rfl

end

/-- The columns that `sync_persons_pii_to_visitors` assigns. -/
def Row.withNamesOf (p : PersonRow) : Row → Row
  | .visitor v =>
      .visitor
        { v with
          firstName := some p.firstName
          lastName := some p.lastName
          email := p.email
          phone := p.phone }
  | r => r

def syncRow (p : PersonRow) : Table.Assignment Row where
  apply := Row.withNamesOf p
  key_apply r := by cases r <;> rfl

/-- `sync_persons_pii_to_visitors`. A visit that has the values already is written as it is. -/
def syncPersonsPiiToVisitors (old new : PersonRow) (rows : Table Row) : Table Row :=
  if new.firstName = old.firstName ∧ new.lastName = old.lastName ∧ new.email = old.email ∧
      new.phone = old.phone then rows
  else
    rows.update (fun r => r.tenantId == new.tenantId && r.visitorOf == some new.id) (syncRow new)

/-! ## The adapters -/

/-- `now() - ($2 || ' days')::interval`. -/
def cutoff (retentionDays now : Int) : Int := now - retentionDays * 86400

/-- `VisitorRecordsAdapter.anonymize`. -/
def anonymizeVisitors (env : Env) (refs : List EntityRef) (reason : Reason) (now : Int) (s : Store) :
    Store :=
  match refs with
  | [] => s
  | ref :: _ =>
      let among := Row.among .visitors ref.tenantId (refs.map (·.resourceId))
      let s := snapshotTx .visitorRecords ref.tenantId (s.rows.rows.filter among) reason s
      { s with rows := s.rows.update (fun r => among r && r.live) (anonymizeRow env reason now) }

def visitorRecordsAdapter : Adapter where
  category := .visitorRecords
  legalBasis := .legitimateInterest
  expired retentionDays now
    | .visitor v =>
        v.anonymizedAt.isNone && decide (v.day < now / 86400 - retentionDays) && v.status.terminal
    | _ => false
  belongsTo _ personId
    | .visitor v =>
        (v.personId == some personId || v.hostPersonId == personId) && v.anonymizedAt.isNone
    | _ => false
  erasureLimit := none
  anonymize := anonymizeVisitors
  hardDelete _ s := s

/-- One round of the loop of `PersonsAdapter.anonymize`, with the trigger. -/
def anonymizePerson (env : Env) (tenantId : Uuid) (reason : Reason) (now : Int) (s : Store)
    (id : Uuid) : Store :=
  match s.rows.get? (.persons, id) with
  | some (.person p) =>
      if p.tenantId = tenantId ∧ p.anonymizedAt = none then
        let rows := s.rows.update (fun r => key r == (.persons, id)) (anonymizeRow env reason now)
        { s with rows := syncPersonsPiiToVisitors p (p.anonymize env reason now) rows }
      else s
  | _ => s

/-- `PersonsAdapter.anonymize`. -/
def anonymizePersons (env : Env) (refs : List EntityRef) (reason : Reason) (now : Int) (s : Store) :
    Store :=
  match refs with
  | [] => s
  | ref :: _ =>
      let ids := refs.map (·.resourceId)
      let originals := s.rows.rows.filter (Row.among .persons ref.tenantId ids)
      ids.foldl (anonymizePerson env ref.tenantId reason now)
        (snapshotTx .personRefInPastRecords ref.tenantId originals reason s)

def personsAdapter : Adapter where
  category := .personRefInPastRecords
  legalBasis := .contract
  expired retentionDays now
    | .person p =>
        p.leftAt.any (fun t => decide (t < cutoff retentionDays now)) && p.anonymizedAt.isNone
    | _ => false
  belongsTo _ personId
    | .person p => p.id == personId && p.anonymizedAt.isNone
    | _ => false
  erasureLimit := none
  anonymize := anonymizePersons
  hardDelete _ s := s

/-- `AuditEventsAdapter.anonymize`. -/
def anonymizeAuditEvents (env : Env) (refs : List EntityRef) (reason : Reason) (now : Int)
    (s : Store) : Store :=
  match refs with
  | [] => s
  | ref :: _ =>
      let among := Row.among .auditEvents ref.tenantId (refs.map (·.resourceId))
      let s := snapshotTx .auditEvents ref.tenantId (s.rows.rows.filter among) reason s
      { s with rows := s.rows.update (fun r => among r && r.live) (anonymizeRow env reason now) }

def auditEventsAdapter : Adapter where
  category := .auditEvents
  legalBasis := .legalObligation
  expired retentionDays now
    | .auditEvent e => decide (e.createdAt < cutoff retentionDays now) && !e.isAnonymized
    | _ => false
  belongsTo users personId
    | .auditEvent e => e.actorPerson users == some personId && !e.isAnonymized
    | _ => false
  erasureLimit := some scanLimit
  anonymize := anonymizeAuditEvents
  hardDelete _ s := s

/-- `delete from … where tenant_id = $1 and id = any($2)`. -/
def hardDeleteRows (table : ResourceType) (refs : List EntityRef) (s : Store) : Store :=
  match refs with
  | [] => s
  | ref :: _ =>
      { s with
        rows := s.rows.delete (Row.among table ref.tenantId (refs.map (·.resourceId))) }

/-- `makeHardDeleteByDateAdapter`. Its `anonymize` only logs. -/
def makeHardDeleteByDateAdapter (category : DataCategory) (table : ResourceType)
    (belongsTo : Uuid → Row → Bool) : Adapter where
  category
  legalBasis := .none
  expired retentionDays now r :=
    r.resourceType == table && decide (r.age < cutoff retentionDays now)
  belongsTo _ := belongsTo
  erasureLimit := none
  anonymize _ _ _ _ s := s
  hardDelete := hardDeleteRows table

/-- `makeNoOpAdapter` and `makePendingSpecAdapter`. -/
def makeNoOpAdapter (category : DataCategory) (legalBasis : LegalBasis) : Adapter where
  category
  legalBasis
  expired _ _ _ := false
  belongsTo _ _ _ := false
  erasureLimit := none
  anonymize _ _ _ _ s := s
  hardDelete _ s := s

def webhookNotificationsAdapter : Adapter :=
  makeHardDeleteByDateAdapter .webhookNotifications .webhookEvents fun _ _ => false

def emailNotificationsAdapter : Adapter :=
  makeHardDeleteByDateAdapter .emailNotifications .notifications fun personId r =>
    match r with
    | .notification n => n.recipientPersonId == some personId
    | _ => false

/-- `buildNoOpAdapters`. -/
def noOpAdapters : List Adapter :=
  [makeNoOpAdapter .calendarEventContent .none,
    makeNoOpAdapter .pastBookings .legalObligation,
    makeNoOpAdapter .pastOrders .legalObligation,
    makeNoOpAdapter .personalDataAccessLogs .legitimateInterest,
    makeNoOpAdapter .personPreferences .contract]

/-- `buildPendingSpecAdapters`. -/
def pendingSpecAdapters : List Adapter :=
  [makeNoOpAdapter .visitorPhotosIds .legitimateInterest,
    makeNoOpAdapter .cctvFootage .legitimateInterest,
    makeNoOpAdapter .calendarAttendeesSnapshot .legitimateInterest,
    makeNoOpAdapter .dailyListPdfs .legitimateInterest,
    makeNoOpAdapter .ghostPersons .legitimateInterest,
    makeNoOpAdapter .vendorUserData .contract]

/-- `registry.all()`. -/
def registry : List Adapter :=
  [visitorRecordsAdapter, personsAdapter, auditEventsAdapter, webhookNotificationsAdapter,
    emailNotificationsAdapter] ++ noOpAdapters ++ pendingSpecAdapters

/-- `registry.get`. -/
def registryGet (category : DataCategory) : Option Adapter :=
  registry.find? (·.category == category)

theorem registry_nodup : (registry.map (·.category)).Nodup := by decide

theorem registry_cases {a : Adapter} (h : a ∈ registry) :
    a = visitorRecordsAdapter ∨ a = personsAdapter ∨ a = auditEventsAdapter ∨
      a = webhookNotificationsAdapter ∨ a = emailNotificationsAdapter ∨
      ∃ c b, a = makeNoOpAdapter c b ∧ ∀ table : ResourceType, table.category ≠ c := by
  simp only [registry, noOpAdapters, pendingSpecAdapters, List.mem_append, List.mem_cons,
    List.not_mem_nil, or_false] at h
  rcases h with ((h | h | h | h | h) | h | h | h | h | h) | h | h | h | h | h | h
  · exact .inl h
  · exact .inr (.inl h)
  · exact .inr (.inr (.inl h))
  · exact .inr (.inr (.inr (.inl h)))
  · exact .inr (.inr (.inr (.inr (.inl h))))
  all_goals exact .inr (.inr (.inr (.inr (.inr ⟨_, _, h, by intro table; cases table <;> decide⟩))))

end Prequest.Privacy
