import Mathlib.Logic.Function.Basic
import Prequest.DailyList.Feed

/-!
# Sending daily lists

Any number of scheduler instances and forced sends work on the same lists. A send
acquires its list, mails it and records the outcome, in transactions of their own;
the lease is the time of the acquisition, which the worker reads and sends back.
A sweeper takes leases away that are older than five minutes.

* `sendStep`: one transaction, a crash, a sweep, or time that passes.
-/

namespace Prequest.DailyList

open Prequest.Lib

/-! ## The system -/

/-- The acquisition of a list: `sending_acquired_at` in microseconds, and the payload that the
worker has read. -/
structure Lease where
  listId : Nat
  acquiredAt : Int
  lineIds : List Nat
  deriving DecidableEq, Repr

/-- `leaseTs`. The driver reads the column into a `Date`, which keeps milliseconds. -/
def Lease.token (lease : Lease) : Int := lease.acquiredAt / 1000 * 1000

/-- A worker between two of its transactions. -/
inductive Worker where
  | idle
  /-- It holds the lock of the bucket, of which no version was sent. -/
  | searching (b : Bucket)
  /-- It found no version to try again. -/
  | assembling (b : Bucket)
  | recording (b : Bucket) (payload : List PayloadLine)
  /-- It has called `send`. -/
  | sending (listId : Nat) (force : Bool)
  /-- `renderAndUpload` has returned. -/
  | uploaded (list : VendorDailyList) (force : Bool)
  | mailing (lease : Lease)
  /-- The mailer has answered with a message id, or with an error. -/
  | mailed (lease : Lease) (result : Except String String)

def Worker.lockedBucket? : Worker → Option Bucket
  | .searching b => some b
  | .assembling b => some b
  | .recording b _ => some b
  | _ => none

def Worker.lease? : Worker → Option Lease
  | .mailing lease => some lease
  | .mailed lease _ => some lease
  | _ => none

/-- The tables, the clock, the advisory locks and the workers. -/
structure SendState (ι : Type) where
  lists : Table VendorDailyList
  lines : Table Line
  clock : Int
  locks : List Int
  worker : ι → Worker

inductive SendEvent (ι : Type) where
  | elapse (microseconds : Nat)
  /-- A tick gets to a bucket. -/
  | start (i : ι) (b : Bucket)
  | search (i : ι)
  | assembled (i : ι) (payload : List PayloadLine)
  | record (i : ι)
  /-- `send` is called from outside of a tick. -/
  | request (i : ι) (listId : Nat) (force : Bool)
  | upload (i : ι)
  | acquire (i : ι)
  | mail (i : ι) (result : Except String String)
  | finish (i : ι)
  | crash (i : ι)
  | reclaim

def SendEvent.worker? {ι : Type} : SendEvent ι → Option ι
  | .elapse _ => none
  | .start i _ => some i
  | .search i => some i
  | .assembled i _ => some i
  | .record i => some i
  | .request i _ _ => some i
  | .upload i => some i
  | .acquire i => some i
  | .mail i _ => some i
  | .finish i => some i
  | .crash i => some i
  | .reclaim => none

/-- What the steps take from outside. -/
structure SendConfig where
  feed : Config
  lockKey : Bucket → Int
  pdfStoragePath : VendorDailyList → String

/-- `olderThanMs` in microseconds. -/
def reclaimAfter : Int := 300000000

def setPdfPath (cfg : SendConfig) : Table.Assignment VendorDailyList where
  apply l := { l with pdfStoragePath := some (cfg.pdfStoragePath l) }
  key_apply _ := rfl

def setSending (now : Int) : Table.Assignment VendorDailyList where
  apply l := { l with emailStatus := .sending, emailError := none, sendingAcquiredAt := some now }
  key_apply _ := rfl

def setFailed (error : String) : Table.Assignment VendorDailyList where
  apply l := { l with emailStatus := .failed, emailError := some error, sendingAcquiredAt := none }
  key_apply _ := rfl

/-- The row is in the state in which the holder of the token left it. -/
def fencedBy (listId : Nat) (token : Int) (l : VendorDailyList) : Bool :=
  l.id == listId && l.emailStatus == .sending && l.sendingAcquiredAt == some token

/-- `fromStatuses`. -/
def acquirable (force : Bool) (status : EmailStatus) : Bool :=
  retryEligible status || (force && status == .sent)

def isStuck (now : Int) (l : VendorDailyList) : Bool :=
  l.emailStatus == .sending && l.sendingAcquiredAt.any fun t => decide (t < now - reclaimAfter)

section

variable {ι : Type} [DecidableEq ι]

def SendState.setWorker (s : SendState ι) (i : ι) (w : Worker) : SendState ι :=
  { s with worker := Function.update s.worker i w }

/-- The worker leaves the first phase, and its lock is released. -/
def SendState.leave (cfg : SendConfig) (s : SendState ι) (i : ι) (w : Worker) : SendState ι :=
  match (s.worker i).lockedBucket? with
  | some b => { s.setWorker i w with locks := s.locks.erase (cfg.lockKey b) }
  | none => s.setWorker i w

/-- `renderAndUpload`, and the checks of `send` after it. -/
def upload (cfg : SendConfig) (s : SendState ι) (i : ι) (listId : Nat) (force : Bool) :
    SendState ι :=
  let lists := s.lists.update (fun l => l.id == listId && l.pdfStoragePath.isNone) (setPdfPath cfg)
  match lists.get? listId with
  | none => s.setWorker i .idle
  | some l =>
      { s with
        lists
        worker := Function.update s.worker i
          (if l.sentAt.isSome && !force || l.recipientEmail.isNone then .idle
          else .uploaded l force) }

/-- The compare-and-set of `send`. -/
def acquire (s : SendState ι) (i : ι) (list : VendorDailyList) (force : Bool) : SendState ι :=
  if s.lists.rows.any fun l => l.id == list.id && acquirable force l.emailStatus then
    { s with
      lists := s.lists.update (fun l => l.id == list.id && acquirable force l.emailStatus)
        (setSending s.clock)
      worker := Function.update s.worker i (.mailing ⟨list.id, s.clock, list.lineIds⟩) }
  else s.setWorker i .idle

/-- The last transaction of `send`: the success with the locks, or the failure. -/
def finish (s : SendState ι) (i : ι) (lease : Lease) (result : Except String String) :
    SendState ι :=
  match result with
  | .ok messageId =>
      if s.lists.rows.any (fencedBy lease.listId lease.token) then
        { s with
          lists := s.lists.update (fencedBy lease.listId lease.token) (markSent s.clock messageId)
          lines := lockLines s.clock lease.listId lease.lineIds s.lines
          worker := Function.update s.worker i .idle }
      else s.setWorker i .idle
  | .error error =>
      { s with
        lists := s.lists.update (fencedBy lease.listId lease.token) (setFailed error)
        worker := Function.update s.worker i .idle }

def sendStep (cfg : SendConfig) (s : SendState ι) : SendEvent ι → SendState ι
  | .elapse microseconds => { s with clock := s.clock + microseconds }
  | .start i b =>
      match s.worker i with
      | .idle =>
          if cfg.lockKey b ∈ s.locks then s
          else if s.lists.rows.any fun l => l.bucket == b && l.sentAt.isSome then s
          else { s.setWorker i (.searching b) with locks := cfg.lockKey b :: s.locks }
      | _ => s
  | .search i =>
      match s.worker i with
      | .searching b =>
          match findUnsentRowForBucket s.lists b with
          | some l => s.leave cfg i (.sending l.id false)
          | none => s.setWorker i (.assembling b)
      | _ => s
  | .assembled i payload =>
      match s.worker i with
      | .assembling b =>
          if payload.isEmpty then s.leave cfg i .idle else s.setWorker i (.recording b payload)
      | _ => s
  | .record i =>
      match s.worker i with
      | .recording b payload =>
          let l := newVersion cfg.feed s.lists (freshId s.lists) b payload
          { s.leave cfg i (.sending l.id false) with lists := s.lists.put l }
      | _ => s
  | .request i listId force =>
      match s.worker i with
      | .idle => s.setWorker i (.sending listId force)
      | _ => s
  | .upload i =>
      match s.worker i with
      | .sending listId force => upload cfg s i listId force
      | _ => s
  | .acquire i =>
      match s.worker i with
      | .uploaded list force => acquire s i list force
      | _ => s
  | .mail i result =>
      match s.worker i with
      | .mailing lease => s.setWorker i (.mailed lease result)
      | _ => s
  | .finish i =>
      match s.worker i with
      | .mailed lease result => finish s i lease result
      | _ => s
  | .crash i => s.leave cfg i .idle
  | .reclaim =>
      { s with
        lists := s.lists.update (isStuck s.clock)
          (setFailed "reclaimed: stuck in sending past sweep threshold") }

/-- No list, and no worker at work. -/
def SendState.start (lines : Table Line) (clock : Int) : SendState ι where
  lists := Table.empty
  lines := lines
  clock := clock
  locks := []
  worker _ := .idle

/-! ## The law -/

/-- The list is marked as sent: for the first time, or once more. -/
def MarkedSent (before after : Table VendorDailyList) (id : Nat) : Prop :=
  ∃ l ∈ before.rows, ∃ l' ∈ after.rows, l.id = id ∧ l'.id = id ∧
    ((l.emailStatus ≠ .sent ∧ l'.emailStatus = .sent) ∨ l'.sentAt ≠ l.sentAt)

def BecomesSent (before after : Table VendorDailyList) (id : Nat) : Prop :=
  ∃ l ∈ before.rows, ∃ l' ∈ after.rows, l.id = id ∧ l'.id = id ∧ l.sentAt = none ∧ l'.sentAt ≠ none

def Current (lists : Table VendorDailyList) (lease : Lease) : Prop :=
  ∃ l ∈ lists.rows, l.id = lease.listId ∧ l.emailStatus = .sending ∧
    l.sendingAcquiredAt = some lease.acquiredAt

def Holds (s : SendState ι) (i : ι) (id : Nat) : Prop :=
  ∃ lease, (s.worker i).lease? = some lease ∧ lease.listId = id ∧ Current s.lists lease

variable (cfg : SendConfig) (s₀ : SendState ι)

def sent (events : List (SendEvent ι)) : SendState ι := run (sendStep cfg) s₀ events

structure Fenced (events : List (SendEvent ι)) : Prop where
  /-- A list is marked as sent by the holder of its current lease. -/
  byHolder : ∀ pre event post, events = pre ++ event :: post → ∀ id,
    MarkedSent (sent cfg s₀ pre).lists (sent cfg s₀ (pre ++ [event])).lists id →
    ∃ i, event = .finish i ∧ Holds (sent cfg s₀ pre) i id
  oneHolder : ∀ pre post, events = pre ++ post → ∀ i j id,
    Holds (sent cfg s₀ pre) i id → Holds (sent cfg s₀ pre) j id → i = j
  once : ∀ pre event mid event' post, events = pre ++ event :: (mid ++ event' :: post) → ∀ id,
    BecomesSent (sent cfg s₀ pre).lists (sent cfg s₀ (pre ++ [event])).lists id →
    ¬BecomesSent (sent cfg s₀ (pre ++ event :: mid)).lists
      (sent cfg s₀ (pre ++ event :: (mid ++ [event']))).lists id
  /-- A list is marked once more for a forced send. -/
  again : ∀ pre event mid event' post, events = pre ++ event :: (mid ++ event' :: post) → ∀ id,
    MarkedSent (sent cfg s₀ pre).lists (sent cfg s₀ (pre ++ [event])).lists id →
    MarkedSent (sent cfg s₀ (pre ++ event :: mid)).lists
      (sent cfg s₀ (pre ++ event :: (mid ++ [event']))).lists id →
    ∃ mid₁ i mid₂ list, mid = mid₁ ++ .acquire i :: mid₂ ∧
      (sent cfg s₀ (pre ++ event :: mid₁)).worker i = .uploaded list true ∧ list.id = id
  /-- A worker whose lease was reclaimed changes neither the lists nor the lines. -/
  stale : ∀ pre mid event post, events = pre ++ .reclaim :: (mid ++ event :: post) →
    ∀ i lease, ((sent cfg s₀ pre).worker i).lease? = some lease →
    Current (sent cfg s₀ pre).lists lease → ¬Current (sent cfg s₀ (pre ++ [.reclaim])).lists lease →
    ((sent cfg s₀ (pre ++ .reclaim :: mid)).worker i).lease? = some lease →
    event.worker? = some i →
    (sent cfg s₀ (pre ++ .reclaim :: (mid ++ [event]))).lists =
        (sent cfg s₀ (pre ++ .reclaim :: mid)).lists ∧
      (sent cfg s₀ (pre ++ .reclaim :: (mid ++ [event]))).lines =
        (sent cfg s₀ (pre ++ .reclaim :: mid)).lines
  /-- A line is locked by a list that is marked as sent and has the line. -/
  locked : ∀ pre event post, events = pre ++ event :: post →
    ∀ l ∈ (sent cfg s₀ pre).lines.rows, ∀ l' ∈ (sent cfg s₀ (pre ++ [event])).lines.rows,
      l'.id = l.id → l' ≠ l → ∃ list ∈ (sent cfg s₀ pre).lists.rows, l'.dailyListId = some list.id ∧
        l.id ∈ list.lineIds ∧
        MarkedSent (sent cfg s₀ pre).lists (sent cfg s₀ (pre ++ [event])).lists list.id
  oneUnsent : ∀ pre post, events = pre ++ post →
    ∀ l ∈ (sent cfg s₀ pre).lists.rows, ∀ l' ∈ (sent cfg s₀ pre).lists.rows,
      l.bucket = l'.bucket → l.sentAt = none → l'.sentAt = none → l = l'
  /-- No list is in sending through five minutes and a sweep after them. -/
  released : ∀ pre mid post, events = pre ++ (mid ++ .reclaim :: post) →
    (sent cfg s₀ pre).clock + reclaimAfter < (sent cfg s₀ (pre ++ mid)).clock →
    ∀ l ∈ (sent cfg s₀ pre).lists.rows, ∃ mid₁ mid₂, mid ++ [.reclaim] = mid₁ ++ mid₂ ∧
      ∃ l' ∈ (sent cfg s₀ (pre ++ mid₁)).lists.rows, l'.id = l.id ∧ l'.emailStatus ≠ .sending

/-- Whenever a version is recorded, every version of its bucket has been sent: none is in sending,
and none has failed since the scheduler looked for one to try again. -/
def RecordsAlone (s : SendState ι) : SendEvent ι → Prop
  | .record i => ∀ b payload, s.worker i = .recording b payload →
      ∀ l ∈ s.lists.rows, l.bucket = b → l.sentAt ≠ none
  | _ => True

end

end Prequest.DailyList
