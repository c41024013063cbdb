import Prequest.DailyList.Rows

/-!
# Two readings of a bucket

The query that finds a bucket groups lines by the place of delivery and by the
service type in the snapshot of the order. The query that assembles its list goes
by the spaces below the building and by the service type of the menu, and it
takes locked lines as well.

* `assemble_of_agrees`: the list that is assembled then.
-/

namespace Prequest.DailyList

open Prequest.Lib

variable {cfg : Config} {db : Db} {b : Bucket}

/-- The foreign key of `delivery_location_id`. -/
def Located (cfg : Config) (orders : Table Order) : Prop :=
  ∀ o ∈ orders.rows, ∀ d, o.deliveryLocationId = some d → (cfg.spaces.get? d).isSome = true

/-- The lines that make the bucket due are on menus of its service type, and whatever else is on
such a menu, for the vendor and the date, is delivered outside of the building. -/
def Agrees (cfg : Config) (db : Db) (b : Bucket) : Prop :=
  (∀ r ∈ madeDue db b, ofServiceType cfg b r.1 = true) ∧
    ∀ r ∈ joined db, selects cfg b r.1 r.2 = true →
      r.1.lockedAt = none ∧ r.2.deliveryLocationId = b.buildingId ∧
        r.2.snapshotServiceType.getD "catering" = b.serviceType

instance : Decidable (Agrees cfg db b) := by
  unfold Agrees
  infer_instance

variable {l : Line} {o : Order}

theorem bucketOf_eq_some : bucketOf l o = some b ↔
      l.vendorId = some b.vendorId ∧ o.deliveryDate = some b.listDate ∧
        o.deliveryLocationId = b.buildingId ∧
        o.snapshotServiceType.getD "catering" = b.serviceType := by
  unfold bucketOf
  cases hvendor : l.vendorId with
  | none => simp
  | some vendorId =>
    cases hdate : o.deliveryDate with
    | none => simp
    | some listDate =>
      cases b
      simp only [Option.some.injEq, Bucket.mk.injEq]
      tauto

theorem unlocked_iff : unlocked l o = true ↔
      l.lockedAt = none ∧ l.recurrenceSkipped = false ∧ o.status ≠ .cancelled := by
  simp [unlocked, and_assoc]

theorem mem_madeDue : (l, o) ∈ madeDue db b ↔
      (l, o) ∈ joined db ∧ unlocked l o = true ∧ bucketOf l o = some b := by
  simp [madeDue]

theorem selects_iff : selects cfg b l o = true ↔
      l.vendorId = some b.vendorId ∧ o.deliveryDate = some b.listDate ∧ o.status ≠ .cancelled ∧
        l.recurrenceSkipped = false ∧ ofServiceType cfg b l = true ∧ inBuilding cfg b o = true := by
  simp [selects, and_assoc]

theorem mem_descendants_self {spaces : Table Space} {root : Nat}
    (h : (spaces.get? root).isSome = true) : root ∈ descendants spaces.rows root := by
  obtain ⟨space, hspace⟩ := Option.isSome_iff_exists.mp h
  obtain ⟨hmem, hid⟩ := Table.get?_eq_some.mp hspace
  refine List.mem_flatMap.mpr ⟨0, List.mem_range.mpr (Nat.succ_pos _), ?_⟩
  exact List.mem_map.mpr ⟨space, List.mem_filter.mpr ⟨hmem, beq_iff_eq.mpr hid⟩, hid⟩

theorem inBuilding_of_location (hlocated : Located cfg db.orders)
    (ho : o ∈ db.orders.rows) (h : o.deliveryLocationId = b.buildingId) :
    inBuilding cfg b o = true := by
  unfold inBuilding
  cases hbuilding : b.buildingId with
  | none => rfl
  | some root =>
    rw [hbuilding] at h
    rw [h]
    exact decide_eq_true (mem_descendants_self (hlocated o ho root h))

theorem agrees_iff (hlocated : Located cfg db.orders) :
    Agrees cfg db b ↔
      ∀ r ∈ joined db, (selects cfg b r.1 r.2 = true ↔
        unlocked r.1 r.2 = true ∧ bucketOf r.1 r.2 = some b) := by
  constructor
  · rintro ⟨honMenu, halone⟩ ⟨l, o⟩ hr
    constructor
    · intro hselects
      obtain ⟨hlocked, hlocation, hservice⟩ := halone (l, o) hr hselects
      obtain ⟨hvendor, hdate, hstatus, hskipped, _, _⟩ := selects_iff.mp hselects
      exact ⟨unlocked_iff.mpr ⟨hlocked, hskipped, hstatus⟩,
        bucketOf_eq_some.mpr ⟨hvendor, hdate, hlocation, hservice⟩⟩
    · rintro ⟨hunlocked, hbucket⟩
      obtain ⟨hvendor, hdate, hlocation, _⟩ := bucketOf_eq_some.mp hbucket
      obtain ⟨_, hskipped, hstatus⟩ := unlocked_iff.mp hunlocked
      have ho : o ∈ db.orders.rows := (Table.get?_eq_some.mp (mem_joined.mp hr).2).1
      exact selects_iff.mpr ⟨hvendor, hdate, hstatus, hskipped,
        honMenu (l, o) (mem_madeDue.mpr ⟨hr, hunlocked, hbucket⟩),
        inBuilding_of_location hlocated ho hlocation⟩
  · intro h
    constructor
    · rintro ⟨l, o⟩ hr
      obtain ⟨hjoined, hgroup⟩ := mem_madeDue.mp hr
      exact (selects_iff.mp ((h (l, o) hjoined).mpr hgroup)).2.2.2.2.1
    · rintro ⟨l, o⟩ hr hselects
      obtain ⟨hunlocked, hbucket⟩ := (h (l, o) hr).mp hselects
      obtain ⟨_, _, hlocation, hservice⟩ := bucketOf_eq_some.mp hbucket
      exact ⟨(unlocked_iff.mp hunlocked).1, hlocation, hservice⟩

def OnPaper (cfg : Config) (b : Bucket) : Prop :=
  ∃ v, cfg.vendors.get? b.vendorId = some v ∧ v.fulfillmentMode ≠ .portal ∧ v.email.isSome = true

def AssemblesExactly (cfg : Config) (db : Db) (b : Bucket) : Prop :=
  ∃ payload, assemble cfg db b = .ok payload ∧
    (payload.map PayloadLine.lineId).Perm ((madeDue db b).map fun r => r.1.id)

theorem assemble_of_agrees (hlocated : Located cfg db.orders) (honPaper : OnPaper cfg b)
    (h : Agrees cfg db b) : AssemblesExactly cfg db b := by
  obtain ⟨v, hvendor, hmode, _⟩ := honPaper
  have hselected : (joined db).filter (fun r => selects cfg b r.1 r.2) = madeDue db b := by
    refine List.filter_congr fun r hr => ?_
    rw [Bool.eq_iff_iff, Bool.and_eq_true, beq_iff_eq]
    exact (agrees_iff hlocated).mp h r hr
  refine ⟨payloadLines cfg db b, ?_, ?_⟩
  · unfold assemble
    rw [hvendor]
    exact if_neg hmode
  · unfold payloadLines
    rw [List.map_map, hselected]
    exact (List.perm_insertionSort _ _).map _

theorem onPaper_of_open {now : Int} (h : b.open cfg now = true) : OnPaper cfg b := by
  unfold Bucket.open at h
  rw [Bool.and_eq_true] at h
  cases hvendor : cfg.vendors.get? b.vendorId with
  | none =>
    rw [hvendor] at h
    cases h.1
  | some v =>
    rw [hvendor, Option.any_some, Bool.and_eq_true, Bool.and_eq_true] at h
    refine ⟨v, hvendor, ?_, h.1.2⟩
    intro hportal
    rw [hportal] at h
    exact absurd h.1.1.1 (by decide)

theorem mem_findDueBuckets {now : Int} (h : b ∈ findDueBuckets cfg now db) :
    b.open cfg now = true ∧ sentAlready db b = false := by
  unfold findDueBuckets at h
  have hfilter := (List.mem_insertionSort _).mp (List.mem_of_mem_take h)
  have hb := (List.mem_filter.mp hfilter).2
  simp only [Bool.and_eq_true, Bool.not_eq_true'] at hb
  exact ⟨hb.1.1, hb.2⟩

theorem nodup_findDueBuckets (cfg : Config) (now : Int) (db : Db) :
    (findDueBuckets cfg now db).Nodup := by
  unfold findDueBuckets
  refine List.Nodup.sublist (List.take_sublist _ _) ?_
  exact (List.perm_insertionSort _ _).nodup_iff.mpr ((List.nodup_dedup _).filter _)

end Prequest.DailyList
