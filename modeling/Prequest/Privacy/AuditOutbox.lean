import Mathlib.Data.List.Sort
import Mathlib.Logic.Function.Basic
import Prequest.Lib.Run
import Prequest.Lib.Table

/-!
# The audit outbox

Services write audit events into `audit_outbox`. Workers drain it: each claims a
batch under a token of its own, copies it into `audit_events` by one statement,
and marks it processed. A claim that is five minutes old is swept away, so the
rows of a worker that died are claimed again, eight times at most.

The copy reads its rows and writes the events later, so it is two steps. It is
rejected as a whole when the database rejects one of the events.
-/

namespace Prequest.Privacy.Audit

open Prequest.Lib

/-! ## Rows -/

/-- A row of `audit_events`. -/
structure AuditEventRow where
  id : Nat
  tenantId : Nat
  eventType : String
  entityType : Option String
  entityId : Option Nat
  actorUserId : Option Nat
  details : String
  ipAddress : Option String
  createdAt : Int
  deriving DecidableEq, Repr

instance : Keyed AuditEventRow Nat where
  key event := event.id

/-- A row of `audit_outbox`. Times are in milliseconds. -/
structure AuditOutboxRow where
  id : Nat
  tenantId : Nat
  eventType : String
  entityType : Option String := none
  entityId : Option Nat := none
  actorUserId : Option Nat := none
  details : String := "\x7b\x7d"
  ipAddress : Option String := none
  occurredAt : Int
  enqueuedAt : Int
  claimToken : Option Nat := none
  claimedAt : Option Int := none
  processedAt : Option Int := none
  attempts : Nat := 0
  deriving DecidableEq, Repr

instance : Keyed AuditOutboxRow Nat where
  key row := row.id

structure AuditOutboxConfig where
  batchSize : Nat := 500
  staleClaimMs : Int := 300000
  purgeAfterDays : Int := 7
  maxAttempts : Nat := 8
  deriving DecidableEq, Repr

def AuditOutboxRow.event (row : AuditOutboxRow) : AuditEventRow where
  id := row.id
  tenantId := row.tenantId
  eventType := row.eventType
  entityType := row.entityType
  entityId := row.entityId
  actorUserId := row.actorUserId
  details := row.details
  ipAddress := row.ipAddress
  createdAt := row.occurredAt

/-! ## Statements -/

def emitted (row : AuditOutboxRow) : AuditOutboxRow :=
  { row with claimToken := none, claimedAt := none, processedAt := none, attempts := 0 }

/-- The condition of the sweep. -/
def isStale (cfg : AuditOutboxConfig) (now : Int) (row : AuditOutboxRow) : Bool :=
  row.processedAt.isNone && row.claimedAt.any fun t => decide (t < now - cfg.staleClaimMs)

/-- `set claim_token = null, claimed_at = null`. -/
def sweepSet : Table.Assignment AuditOutboxRow where
  apply row := { row with claimToken := none, claimedAt := none }
  key_apply _ := rfl

def isClaimable (cfg : AuditOutboxConfig) (row : AuditOutboxRow) : Bool :=
  row.processedAt.isNone && row.claimToken.isNone && decide (row.attempts < cfg.maxAttempts)

/-- The rows that a pass claims, oldest first. Rows in `locked` are skipped. -/
def claimBatch (cfg : AuditOutboxConfig) (outbox : Table AuditOutboxRow) (locked : List Nat) :
    List AuditOutboxRow :=
  ((outbox.rows.filter fun row => isClaimable cfg row && !locked.contains row.id).insertionSort
    fun a b => a.enqueuedAt ≤ b.enqueuedAt).take cfg.batchSize

/-- `set claim_token = …, claimed_at = now(), attempts = o.attempts + 1`. -/
def claimSet (token : Nat) (now : Int) : Table.Assignment AuditOutboxRow where
  apply row :=
    { row with claimToken := some token, claimedAt := some now, attempts := row.attempts + 1 }
  key_apply _ := rfl

/-- `where claim_token = … and processed_at is null`. -/
def isHeld (token : Nat) (row : AuditOutboxRow) : Bool :=
  decide (row.claimToken = some token) && row.processedAt.isNone

/-- What the copy reads. -/
def claimedEvents (outbox : Table AuditOutboxRow) (token : Nat) : List AuditEventRow :=
  (outbox.rows.filter (isHeld token)).map AuditOutboxRow.event

/-- `set processed_at = now()`. -/
def markSet (now : Int) : Table.Assignment AuditOutboxRow where
  apply row := { row with processedAt := some now }
  key_apply _ := rfl

/-- The condition of `purgeProcessed`. -/
def isPurgeable (cfg : AuditOutboxConfig) (now : Int) (row : AuditOutboxRow) : Bool :=
  row.processedAt.any fun t => decide (t < now - 86400000 * cfg.purgeAfterDays)

/-! ## Workers -/

/-- Where a worker is in a pass of `drainOnce`. -/
inductive DrainPass where
  | swept
  | claimed (token : Nat)
  | copying (token : Nat) (events : List AuditEventRow)
  | copied (token : Nat)
  | idle
  deriving DecidableEq, Repr

variable {ι : Type}

structure AuditWorld (ι : Type) where
  outbox : Table AuditOutboxRow
  events : Table AuditEventRow
  /-- No pass: the worker waits for its cron, or died. -/
  pass : ι → Option DrainPass
  nextToken : Nat
  /-- The copies that were rejected, as the log has them. -/
  rejected : List (List AuditEventRow)

inductive Action (ι : Type) where
  | emit (row : AuditOutboxRow)
  | sweep (i : ι) (now : Int)
  | claim (i : ι) (locked : List Nat) (now : Int)
  | read (i : ι)
  | insert (i : ι)
  | mark (i : ι) (now : Int)
  | purge (i : ι) (now : Int)
  /-- The worker dies, or a statement fails for want of a connection. -/
  | crash (i : ι)

/-- One step of the interleaving. A step that its agent cannot take changes nothing. The ids of new
rows are those of no other row or event. -/
def step [DecidableEq ι] (cfg : AuditOutboxConfig) (accepts : AuditEventRow → Bool)
    (w : AuditWorld ι) : Action ι → AuditWorld ι
  | .emit row =>
      if (w.events.get? row.id).isSome then w
      else { w with outbox := w.outbox.put (emitted row) }
  | .sweep i now =>
      match w.pass i with
      | none =>
          { w with
            outbox := w.outbox.update (isStale cfg now) sweepSet
            pass := Function.update w.pass i (some .swept) }
      | _ => w
  | .claim i locked now =>
      match w.pass i with
      | some .swept =>
          let batch := (claimBatch cfg w.outbox locked).map (·.id)
          if batch.isEmpty then { w with pass := Function.update w.pass i (some .idle) }
          else
            { w with
              outbox := w.outbox.update (fun row => batch.contains row.id)
                (claimSet w.nextToken now)
              pass := Function.update w.pass i (some (.claimed w.nextToken))
              nextToken := w.nextToken + 1 }
      | _ => w
  | .read i =>
      match w.pass i with
      | some (.claimed token) =>
          { w with
            pass := Function.update w.pass i
              (some (.copying token (claimedEvents w.outbox token))) }
      | _ => w
  | .insert i =>
      match w.pass i with
      | some (.copying token events) =>
          if events.all accepts then
            { w with
              events := w.events.putAll events
              pass := Function.update w.pass i (some (.copied token)) }
          else
            { w with
              pass := Function.update w.pass i none
              rejected := events :: w.rejected }
      | _ => w
  | .mark i now =>
      match w.pass i with
      | some (.copied token) =>
          { w with
            outbox := w.outbox.update (isHeld token) (markSet now)
            pass := Function.update w.pass i none }
      | _ => w
  | .purge i now =>
      match w.pass i with
      | some .idle =>
          { w with
            outbox := w.outbox.delete (isPurgeable cfg now)
            pass := Function.update w.pass i none }
      | _ => w
  | .crash i => { w with pass := Function.update w.pass i none }

end Prequest.Privacy.Audit
