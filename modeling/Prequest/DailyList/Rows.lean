import Mathlib.Data.List.Dedup
import Mathlib.Data.List.Sort
import Prequest.Lib.Table

/-!
# The tables of the daily lists

A vendor on paper gets its order lines of a day on a list per bucket: building,
service type and date. The scheduler finds the buckets from the lines that are
not locked; the list of a bucket is assembled by another query.

* `findUnsentRowForBucket`, `record`: the versions of a bucket.
-/

namespace Prequest.DailyList

open Prequest.Lib

/-! ## Configuration -/

inductive FulfillmentMode where
  | portal
  | paperOnly
  | hybrid
  deriving DecidableEq, Repr

/-- A row of `vendors`. Clock times are seconds of the day. -/
structure Vendor where
  id : Nat
  fulfillmentMode : FulfillmentMode
  active : Bool
  email : Option String
  cutoffOffsetMinutes : Option Int
  sendClockTime : Option Int
  deriving DecidableEq, Repr

structure Space where
  id : Nat
  parentId : Option Nat
  deriving DecidableEq, Repr

structure CatalogMenu where
  id : Nat
  serviceType : String
  deriving DecidableEq, Repr

structure MenuItem where
  id : Nat
  menuId : Nat
  deriving DecidableEq, Repr

instance : Keyed Vendor Nat := ⟨Vendor.id⟩
instance : Keyed Space Nat := ⟨Space.id⟩
instance : Keyed CatalogMenu Nat := ⟨CatalogMenu.id⟩
instance : Keyed MenuItem Nat := ⟨MenuItem.id⟩

/-- What the queries read and no tick writes, and the clock of Amsterdam. -/
structure Config where
  vendors : Table Vendor
  spaces : Table Space
  menus : Table CatalogMenu
  menuItems : Table MenuItem
  /-- `at time zone 'Europe/Amsterdam'` of a local timestamp. -/
  toInstant : Int → Int
  /-- `at time zone 'Europe/Amsterdam'` of an instant. -/
  toLocal : Int → Int
  maxPerTick : Nat

/-! ## Orders and lists -/

inductive OrderStatus where
  | draft
  | submitted
  | approved
  | confirmed
  | fulfilled
  | cancelled
  deriving DecidableEq, Repr

inductive FulfillmentStatus where
  | ordered
  | confirmed
  | preparing
  | enRoute
  | delivered
  | cancelled
  deriving DecidableEq, Repr

/-- A row of `orders`. Dates are days, times seconds of the day. -/
structure Order where
  id : Nat
  deliveryLocationId : Option Nat
  deliveryDate : Option Int
  deliveryTime : Option Int
  headcount : Option Int
  status : OrderStatus
  /-- `policy_snapshot->>'service_type'`. -/
  snapshotServiceType : Option String
  deriving DecidableEq, Repr

/-- A row of `order_line_items`. -/
structure Line where
  id : Nat
  orderId : Nat
  vendorId : Option Nat
  menuItemId : Option Nat
  catalogItemId : Nat
  quantity : Int
  fulfillmentStatus : FulfillmentStatus
  recurrenceSkipped : Bool
  lockedAt : Option Int
  dailyListId : Option Nat
  deriving DecidableEq, Repr

structure Bucket where
  vendorId : Nat
  buildingId : Option Nat
  serviceType : String
  listDate : Int
  deriving DecidableEq, Repr

structure PayloadLine where
  lineId : Nat
  orderId : Nat
  catalogItemId : Nat
  quantity : Int
  deliveryTime : Option Int
  headcount : Option Int
  deriving DecidableEq, Repr

inductive EmailStatus where
  | neverSent
  | sending
  | sent
  | failed
  deriving DecidableEq, Repr

/-- A row of `vendor_daily_lists`: a version of a bucket. -/
structure VendorDailyList where
  id : Nat
  bucket : Bucket
  version : Nat
  payload : List PayloadLine
  pdfStoragePath : Option String
  recipientEmail : Option String
  sentAt : Option Int
  emailStatus : EmailStatus
  emailMessageId : Option String
  emailError : Option String
  sendingAcquiredAt : Option Int
  deriving DecidableEq, Repr

instance : Keyed Order Nat := ⟨Order.id⟩
instance : Keyed Line Nat := ⟨Line.id⟩
instance : Keyed VendorDailyList Nat := ⟨VendorDailyList.id⟩

def VendorDailyList.lineIds (l : VendorDailyList) : List Nat := l.payload.map PayloadLine.lineId

structure Db where
  orders : Table Order
  lines : Table Line
  lists : Table VendorDailyList

/-- `order_line_items join orders`. -/
def joined (db : Db) : List (Line × Order) :=
  db.lines.rows.filterMap fun l => (db.orders.get? l.orderId).map fun o => (l, o)

theorem mem_joined {db : Db} {l : Line} {o : Order} :
    (l, o) ∈ joined db ↔ l ∈ db.lines.rows ∧ db.orders.get? l.orderId = some o := by
  constructor
  · intro h
    obtain ⟨l', hl', hjoin⟩ := List.mem_filterMap.mp h
    obtain ⟨o', ho', heq⟩ := Option.map_eq_some_iff.mp hjoin
    obtain ⟨rfl, rfl⟩ := Prod.mk.inj heq
    exact ⟨hl', ho'⟩
  · intro h
    exact List.mem_filterMap.mpr ⟨l, h.1, by rw [h.2]; rfl⟩

/-! ## The buckets of a tick -/

def bucketOf (l : Line) (o : Order) : Option Bucket :=
  match l.vendorId, o.deliveryDate with
  | some vendorId, some listDate =>
      some ⟨vendorId, o.deliveryLocationId, o.snapshotServiceType.getD "catering", listDate⟩
  | _, _ => none

def unlocked (l : Line) (o : Order) : Bool :=
  l.lockedAt.isNone && !l.recurrenceSkipped && o.status != .cancelled

def Bucket.open (cfg : Config) (now : Int) (b : Bucket) : Bool :=
  ((cfg.vendors.get? b.vendorId).any fun v =>
    v.fulfillmentMode ∈ [.paperOnly, .hybrid] && v.active && v.email.isSome) &&
  decide (cfg.toLocal now / 86400 ≤ b.listDate ∧ b.listDate ≤ cfg.toLocal now / 86400 + 1)

def madeDue (db : Db) (b : Bucket) : List (Line × Order) :=
  (joined db).filter fun r => unlocked r.1 r.2 && bucketOf r.1 r.2 == some b

/-- `next_send_at`. -/
def sendTime (cfg : Config) (v : Vendor) (listDate : Int) (earliestDeliveryTime : Option Int) :
    Option Int :=
  match v.sendClockTime with
  | some clockTime => some (cfg.toInstant ((listDate - 1) * 86400 + clockTime))
  | none =>
      match earliestDeliveryTime, v.cutoffOffsetMinutes with
      | some time, some offsetMinutes =>
          some (cfg.toInstant (listDate * 86400 + time) - offsetMinutes * 60)
      | _, _ => none

/-- `min(ord.delivery_time)`. -/
def earliestDeliveryTime (rows : List (Line × Order)) : Option Int :=
  (rows.filterMap fun r => r.2.deliveryTime).min?

def Bucket.nextSendAt (cfg : Config) (db : Db) (b : Bucket) : Option Int :=
  (cfg.vendors.get? b.vendorId).bind fun v =>
    sendTime cfg v b.listDate (earliestDeliveryTime (madeDue db b))

def sentAlready (db : Db) (b : Bucket) : Bool :=
  db.lists.rows.any fun l => l.bucket == b && l.sentAt.isSome

def findDueBuckets (cfg : Config) (now : Int) (db : Db) : List Bucket :=
  let buckets := (((joined db).filter fun r => unlocked r.1 r.2).filterMap
    fun r => bucketOf r.1 r.2).dedup
  let due := buckets.filter fun b =>
    b.open cfg now && (b.nextSendAt cfg db).any (fun t => decide (t ≤ now)) && !sentAlready db b
  (due.insertionSort fun a b => (a.nextSendAt cfg db).getD 0 ≤ (b.nextSendAt cfg db).getD 0).take
    cfg.maxPerTick

/-! ## The lines of a bucket -/

/-- The recursive query of the spaces below `root`, by layers. -/
def layer (spaces : List Space) (root : Nat) : Nat → List Nat
  | 0 => (spaces.filter fun s => s.id == root).map Space.id
  | n + 1 => (layer spaces root n).flatMap fun d =>
      (spaces.filter fun s => s.parentId == some d).map Space.id

def descendants (spaces : List Space) (root : Nat) : List Nat :=
  (List.range (spaces.length + 1)).flatMap (layer spaces root)

section

variable (cfg : Config)

/-- `catalog_menus.service_type` of a line. -/
def menuServiceType (l : Line) : Option String :=
  l.menuItemId.bind fun id => (cfg.menuItems.get? id).bind fun item =>
    (cfg.menus.get? item.menuId).map CatalogMenu.serviceType

/-- `serviceTypeClause`. -/
def ofServiceType (b : Bucket) (l : Line) : Bool :=
  b.serviceType == "" || menuServiceType cfg l == some b.serviceType

/-- `buildingClause`. -/
def inBuilding (b : Bucket) (o : Order) : Bool :=
  match b.buildingId with
  | none => true
  | some root => o.deliveryLocationId.any fun d => d ∈ descendants cfg.spaces.rows root

/-- The condition of the query. -/
def selects (b : Bucket) (l : Line) (o : Order) : Bool :=
  l.vendorId == some b.vendorId && o.deliveryDate == some b.listDate &&
    o.status != .cancelled && !l.recurrenceSkipped && ofServiceType cfg b l && inBuilding cfg b o

end

/-- `order by ord.delivery_time nulls last, oli.id`. -/
def beforeLine (a b : Line × Order) : Bool :=
  match a.2.deliveryTime, b.2.deliveryTime with
  | some t, some u => decide (t < u) || t == u && decide (a.1.id ≤ b.1.id)
  | some _, none => true
  | none, some _ => false
  | none, none => decide (a.1.id ≤ b.1.id)

def PayloadLine.ofRow (r : Line × Order) : PayloadLine where
  lineId := r.1.id
  orderId := r.1.orderId
  catalogItemId := r.1.catalogItemId
  quantity := r.1.quantity
  deliveryTime := r.2.deliveryTime
  headcount := r.2.headcount

inductive AssembleError where
  | vendorNotFound
  | invalidVendor
  deriving DecidableEq, Repr

/-- The lines of the query, in its order. -/
def payloadLines (cfg : Config) (db : Db) (b : Bucket) : List PayloadLine :=
  (((joined db).filter fun r => selects cfg b r.1 r.2).insertionSort
    fun r s => beforeLine r s = true).map PayloadLine.ofRow

def assemble (cfg : Config) (db : Db) (b : Bucket) : Except AssembleError (List PayloadLine) :=
  match cfg.vendors.get? b.vendorId with
  | none => .error .vendorNotFound
  | some v =>
      if v.fulfillmentMode = .portal then .error .invalidVendor
      else .ok (payloadLines cfg db b)

/-! ## Versions -/

def retryEligible (status : EmailStatus) : Bool := status ∈ [.neverSent, .failed]

def findUnsentRowForBucket (lists : Table VendorDailyList) (b : Bucket) : Option VendorDailyList :=
  ((lists.rows.filter fun l =>
    l.bucket == b && l.sentAt.isNone && retryEligible l.emailStatus).insertionSort
      fun l l' => l'.version ≤ l.version).head?

/-- `max(version)` of the bucket. -/
def lastVersion (lists : Table VendorDailyList) (b : Bucket) : Nat :=
  ((lists.rows.filter fun l => l.bucket == b).map VendorDailyList.version).foldr max 0

/-- The row that `record` inserts. -/
def newVersion (cfg : Config) (lists : Table VendorDailyList) (id : Nat) (b : Bucket)
    (payload : List PayloadLine) : VendorDailyList where
  id := id
  bucket := b
  version := lastVersion lists b + 1
  payload := payload
  pdfStoragePath := none
  recipientEmail := (cfg.vendors.get? b.vendorId).bind Vendor.email
  sentAt := none
  emailStatus := .neverSent
  emailMessageId := none
  emailError := none
  sendingAcquiredAt := none

/-! ## The end of a send -/

def markSent (now : Int) (messageId : String) : Table.Assignment VendorDailyList where
  apply l :=
    { l with
      sentAt := some now
      emailStatus := .sent
      emailMessageId := some messageId
      emailError := none
      sendingAcquiredAt := none }
  key_apply _ := rfl

def lock (now : Int) (listId : Nat) : Table.Assignment Line where
  apply l := { l with lockedAt := some now, dailyListId := some listId }
  key_apply _ := rfl

def lockLines (now : Int) (listId : Nat) (lineIds : List Nat) (lines : Table Line) : Table Line :=
  lines.update (fun l => l.id ∈ lineIds && l.lockedAt.isNone) (lock now listId)

end Prequest.DailyList
