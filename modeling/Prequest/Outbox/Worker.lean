import Mathlib.Data.List.Sort
import Prequest.Lib.Run
import Prequest.Lib.Table

/-!
# The outbox worker

A worker drains `outbox.events`: it claims a batch of rows under a token of its
own, hands each to the handler of its type, and writes the outcome. Every write
of an outcome names the token, so that a worker whose claim was taken away
writes nothing.

Dead-lettering is one transaction of two statements under READ COMMITTED. The
first copies the row without locking it; the second flags the row. They are two
steps here, and the copy becomes visible with the second. Of two copies of one
event, the first to commit stays.
-/

namespace Prequest.Outbox.Worker

open Prequest.Lib

/-! ## Rows -/

/-- The values of `processed_reason` that the worker writes, and those of a caller. -/
inductive ProcessedReason where
  | handlerOk
  | consumed (reason : String)
  deriving DecidableEq, Repr

/-- A row of `outbox.events`. Times are in milliseconds. -/
structure EventRow where
  id : Nat
  tenantId : Nat
  eventType : String
  eventVersion : Nat := 1
  idempotencyKey : String
  enqueuedAt : Int
  availableAt : Int
  processedAt : Option Int := none
  processedReason : Option ProcessedReason := none
  claimToken : Option Nat := none
  claimedAt : Option Int := none
  attempts : Nat := 0
  lastError : Option String := none
  deadLetteredAt : Option Int := none
  deriving DecidableEq, Repr

instance : Keyed EventRow Nat where
  key := EventRow.id

inductive DeadLetterReason where
  | maxAttempts
  | deadLetterError
  | tenantNotFound
  | noHandlerRegistered
  deriving DecidableEq, Repr

/-- A row of `outbox.events_dead_letter`. -/
structure DeadLetterRow where
  id : Nat
  tenantId : Nat
  eventType : String
  eventVersion : Nat
  idempotencyKey : String
  enqueuedAt : Int
  attempts : Nat
  lastError : Option String
  deadLetteredAt : Int
  deadLetterReason : DeadLetterReason
  deriving DecidableEq, Repr

instance : Keyed DeadLetterRow Nat where
  key := DeadLetterRow.id

structure WorkerConfig where
  batchSize : Nat := 100
  maxAttempts : Nat := 5
  staleClaimMs : Int := 300000
  purgeAfterDays : Int := 7
  backoffMs : List Int := [30000, 120000, 600000, 3600000]
  deriving DecidableEq, Repr

/-! ## Statements -/

def EventRow.isOpen (e : EventRow) : Bool := e.processedAt.isNone && e.deadLetteredAt.isNone

def drainable (cfg : WorkerConfig) (now : Int) (e : EventRow) : Bool :=
  e.isOpen && e.claimToken.isNone && decide (e.availableAt ≤ now) &&
    decide (e.attempts < cfg.maxAttempts)

/-- `order by available_at, enqueued_at`. -/
def drainsBefore (a b : EventRow) : Prop :=
  a.availableAt < b.availableAt ∨ a.availableAt = b.availableAt ∧ a.enqueuedAt ≤ b.enqueuedAt

instance : DecidableRel drainsBefore := fun a b => by
  unfold drainsBefore
  infer_instance

/-- The rows that a drain pass claims. Rows in `locked` are skipped. -/
def claimBatch (cfg : WorkerConfig) (events : Table EventRow) (locked : List Nat) (now : Int) :
    List EventRow :=
  ((events.rows.filter fun e => drainable cfg now e && !locked.contains e.id).insertionSort
    drainsBefore).take cfg.batchSize

/-- `set claim_token = …, claimed_at = now()`. -/
def claimSet (token : Nat) (now : Int) : Table.Assignment EventRow where
  apply e := { e with claimToken := some token, claimedAt := some now }
  key_apply _ := rfl

/-- `where id = … and claim_token = …`. -/
def heldBy (id token : Nat) (e : EventRow) : Bool :=
  decide (e.id = id) && decide (e.claimToken = some token)

/-- `markSuccess`. -/
def successSet (now : Int) : Table.Assignment EventRow where
  apply e :=
    { e with
      processedAt := some now
      processedReason := some .handlerOk
      claimToken := none
      lastError := none
      attempts := e.attempts + 1 }
  key_apply _ := rfl

/-- `markRetry`. -/
def retrySet (nextAttempts : Nat) (error : String) (delayMs now : Int) :
    Table.Assignment EventRow where
  apply e :=
    { e with
      claimToken := none
      lastError := some error
      attempts := nextAttempts
      availableAt := now + delayMs }
  key_apply _ := rfl

/-- The second statement of `deadLetter`. -/
def flagSet (error : String) (now : Int) : Table.Assignment EventRow where
  apply e :=
    { e with
      claimToken := none
      attempts := e.attempts + 1
      lastError := some error
      deadLetteredAt := some now }
  key_apply _ := rfl

/-- The row that the first statement of `deadLetter` copies. -/
def deadLetterOf (e : EventRow) (reason : DeadLetterReason) (error : String) (now : Int) :
    DeadLetterRow where
  id := e.id
  tenantId := e.tenantId
  eventType := e.eventType
  eventVersion := e.eventVersion
  idempotencyKey := e.idempotencyKey
  enqueuedAt := e.enqueuedAt
  attempts := e.attempts + 1
  lastError := some error
  deadLetteredAt := now
  deadLetterReason := reason

/-- The condition of `sweepStaleClaims`. -/
def isStale (cfg : WorkerConfig) (now : Int) (e : EventRow) : Bool :=
  e.isOpen && e.claimedAt.any fun at' => decide (at' < now - cfg.staleClaimMs)

/-- `set claim_token = null, claimed_at = null`. -/
def sweepSet : Table.Assignment EventRow where
  apply e := { e with claimToken := none, claimedAt := none }
  key_apply _ := rfl

/-- The condition of `purgeProcessed`. -/
def isPurgeable (cfg : WorkerConfig) (now : Int) (e : EventRow) : Bool :=
  e.processedAt.any fun at' => decide (at' < now - cfg.purgeAfterDays * 86400000)

/-- The condition of `mark_consumed`. -/
def isConsumable (tenantId : Nat) (idempotencyKey : String) (e : EventRow) : Bool :=
  decide (e.tenantId = tenantId) && decide (e.idempotencyKey = idempotencyKey) && e.isOpen

/-- `mark_consumed`. -/
def consumeSet (reason : String) (now : Int) : Table.Assignment EventRow where
  apply e :=
    { e with
      processedAt := some (e.processedAt.getD now)
      processedReason := if e.processedAt.isNone then some (.consumed reason) else e.processedReason
      claimToken := none }
  key_apply _ := rfl

/-! ## Dispatch -/

/-- How `handler.handle` ends. -/
inductive HandlerResult where
  | ok
  | deadLetterError (message : String)
  | threw (message : String)
  deriving DecidableEq, Repr

/-- What `dispatchOne` meets: the registry, the tenant table, the handler, and the jitter it draws. -/
structure DispatchAnswer where
  hasHandler : Bool := true
  tenantFound : Bool := true
  result : HandlerResult
  jitter : Int := 0
  deriving DecidableEq, Repr

/-- The transition that `dispatchOne` fires. -/
inductive Outcome where
  | success
  | retry (nextAttempts : Nat) (error : String)
  | deadLetter (reason : DeadLetterReason) (error : String)
  deriving DecidableEq, Repr

/-- `dispatchOne`, up to the write. `event` is the row as the claim returned it. -/
def dispatchOutcome (cfg : WorkerConfig) (event : EventRow) (answer : DispatchAnswer) : Outcome :=
  if !answer.hasHandler then
    .deadLetter .noHandlerRegistered
      s!"no handler registered for {event.eventType}@v{event.eventVersion}"
  else if !answer.tenantFound then
    .deadLetter .tenantNotFound s!"tenant {event.tenantId} not found in tenants registry"
  else match answer.result with
    | .ok => .success
    | .deadLetterError message => .deadLetter .deadLetterError message
    | .threw message =>
        if cfg.maxAttempts ≤ event.attempts + 1 then .deadLetter .maxAttempts message
        else .retry (event.attempts + 1) message

/-- `backoffForAttempt`, with the jitter drawn. -/
def backoffForAttempt (cfg : WorkerConfig) (attempt : Nat) (jitter : Int) : Int :=
  let idx := min (attempt - 1) (cfg.backoffMs.length - 1)
  max 1000 (cfg.backoffMs.getD idx 0 + jitter)

/-! ## Workers -/

structure OpenCopy where
  error : String
  /-- The row that was inserted, if the claim still held and the key was free. -/
  inserted : Option DeadLetterRow
  deriving DecidableEq, Repr

/-- A drain pass in progress: the token, the rows left, and the transaction of the first, if it
is in one. -/
structure DrainPass where
  token : Nat
  batch : List EventRow
  openCopy : Option OpenCopy := none
  deriving DecidableEq, Repr

/-- The tables and the workers. `nextToken` is above every token drawn by `randomUUID`. -/
structure OutboxWorld (ι : Type) where
  events : Table EventRow
  deadLetters : Table DeadLetterRow
  pass : ι → Option DrainPass
  nextToken : Nat

inductive Action (ι : Type) where
  /-- `outbox.emit` of an event. -/
  | emit (event : EventRow)
  | drain (worker : ι) (locked : List Nat) (now : Int)
  /-- The handler has run on the first event of the batch, and its outcome is written. -/
  | dispatch (worker : ι) (answer : DispatchAnswer) (now : Int)
  /-- The second statement of a dead-letter transaction, and its commit. -/
  | flag (worker : ι) (now : Int)
  /-- The write fails; the row stays claimed. -/
  | fail (worker : ι)
  /-- The process ends. -/
  | crash (worker : ι)
  | sweep (now : Int)
  | purge (now : Int)
  | markConsumed (tenantId : Nat) (idempotencyKey reason : String) (now : Int)

variable {ι : Type}

/-- The row that `outbox.emit` inserts; the other columns have their defaults. -/
def emitted (event : EventRow) : EventRow where
  id := event.id
  tenantId := event.tenantId
  eventType := event.eventType
  eventVersion := event.eventVersion
  idempotencyKey := event.idempotencyKey
  enqueuedAt := event.enqueuedAt
  availableAt := event.availableAt

/-- `outbox.emit` of a key that is not there. A key that is there inserts nothing. -/
def emitEvent (events : Table EventRow) (event : EventRow) : Table EventRow :=
  if events.rows.any fun e =>
      decide (e.tenantId = event.tenantId) && decide (e.idempotencyKey = event.idempotencyKey)
  then events
  else events.put (emitted event)

/-- Worker `i` goes on with `p`. -/
def OutboxWorld.setPass [DecidableEq ι] (w : OutboxWorld ι) (i : ι) (p : Option DrainPass) :
    ι → Option DrainPass :=
  Function.update w.pass i p

def DrainPass.advance (p : DrainPass) : Option DrainPass :=
  match p.batch.tail with
  | [] => none
  | rest => some { token := p.token, batch := rest }

/-- The row that `deadLetter` inserts, unless the claim is gone or the key is there already. -/
def copyOf (w : OutboxWorld ι) (p : DrainPass) (event : EventRow) (reason : DeadLetterReason)
    (error : String) (now : Int) : Option DeadLetterRow :=
  match w.events.rows.find? (heldBy event.id p.token) with
  | none => none
  | some e =>
      if w.deadLetters.rows.any fun d =>
          decide (d.tenantId = e.tenantId) && decide (d.idempotencyKey = e.idempotencyKey)
      then none
      else some (deadLetterOf e reason error now)

/-- One step of the interleaving. A step that its agent cannot take changes nothing. -/
def step [DecidableEq ι] (cfg : WorkerConfig) (w : OutboxWorld ι) : Action ι → OutboxWorld ι
  | .emit event => { w with events := emitEvent w.events event }
  | .drain i locked now =>
      match w.pass i with
      | some _ => w
      | none =>
          let claimed := (claimBatch cfg w.events locked now).map (·.id)
          let events := w.events.update (fun e => claimed.contains e.id) (claimSet w.nextToken now)
          let batch := events.rows.filter fun e => claimed.contains e.id
          { w with
            events := events
            pass := w.setPass i
              (if batch.isEmpty then none else some { token := w.nextToken, batch := batch })
            nextToken := w.nextToken + 1 }
  | .dispatch i answer now =>
      match w.pass i with
      | some { token := token, batch := event :: rest, openCopy := none } =>
          let p : DrainPass := { token := token, batch := event :: rest }
          match dispatchOutcome cfg event answer with
          | .success =>
              { w with
                events := w.events.update (heldBy event.id token) (successSet now)
                pass := w.setPass i p.advance }
          | .retry nextAttempts error =>
              { w with
                events := w.events.update (heldBy event.id token)
                  (retrySet nextAttempts error
                    (backoffForAttempt cfg nextAttempts answer.jitter) now)
                pass := w.setPass i p.advance }
          | .deadLetter reason error =>
              { w with
                pass := w.setPass i (some { p with
                  openCopy := some
                    { error := error, inserted := copyOf w p event reason error now } }) }
      | _ => w
  | .flag i now =>
      match w.pass i with
      | some { token := token, batch := event :: rest, openCopy := some copy } =>
          let p : DrainPass := { token := token, batch := event :: rest }
          { w with
            events := w.events.update (heldBy event.id token) (flagSet copy.error now)
            deadLetters := copy.inserted.elim w.deadLetters w.deadLetters.put
            pass := w.setPass i p.advance }
      | _ => w
  | .fail i => { w with pass := w.setPass i ((w.pass i).bind DrainPass.advance) }
  | .crash i => { w with pass := w.setPass i none }
  | .sweep now => { w with events := w.events.update (isStale cfg now) sweepSet }
  | .purge now => { w with events := w.events.delete (isPurgeable cfg now) }
  | .markConsumed tenantId idempotencyKey reason now =>
      { w with
        events := w.events.update (isConsumable tenantId idempotencyKey) (consumeSet reason now) }

end Prequest.Outbox.Worker
