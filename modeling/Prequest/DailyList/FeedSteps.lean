import Prequest.DailyList.Feed

/-!
# The steps of the scheduler

* `FeedInv.step`: every sound step keeps it.
-/

namespace Prequest.DailyList

open Prequest.Lib

variable {cfg : Config}

/-! ## Changes of the orders -/

/-- A later state of a line that no list has touched in between. -/
structure Line.Kept (l l' : Line) : Prop where
  id : l'.id = l.id
  orderId : l'.orderId = l.orderId
  vendorId : l'.vendorId = l.vendorId
  lockedAt : l'.lockedAt = l.lockedAt
  dailyListId : l'.dailyListId = l.dailyListId
  cancelled : l.fulfillmentStatus = .cancelled → l'.fulfillmentStatus = .cancelled
  skipped : l.recurrenceSkipped = true → l'.recurrenceSkipped = true

theorem Line.Kept.refl (l : Line) : l.Kept l := ⟨rfl, rfl, rfl, rfl, rfl, fun h => h, fun h => h⟩

/-- A later state of an order. -/
structure Order.Kept (o o' : Order) : Prop where
  location : o'.deliveryLocationId = o.deliveryLocationId
  date : o'.deliveryDate = o.deliveryDate
  serviceType : o'.snapshotServiceType = o.snapshotServiceType
  cancelled : o.status = .cancelled → o'.status = .cancelled

theorem Order.Kept.refl (o : Order) : o.Kept o := ⟨rfl, rfl, rfl, fun h => h⟩

/-- The orders and lines after a change that does not come from the scheduler. -/
structure Edited (db db' : Db) : Prop where
  lists : db'.lists = db.lists
  line : ∀ l ∈ db.lines.rows, ∃ l' ∈ db'.lines.rows, l.Kept l'
  order : ∀ id o, db.orders.get? id = some o → ∃ o', db'.orders.get? id = some o' ∧ o.Kept o'
  unlocked : ∀ l' ∈ db'.lines.rows, l'.lockedAt = none ∨ ∃ l ∈ db.lines.rows, l.Kept l'

variable {l l' : Line}

theorem bucketOf_kept {o o' : Order} (hl : l.Kept l') (ho : o.Kept o') :
    bucketOf l' o' = bucketOf l o := by
  unfold bucketOf
  rw [hl.vendorId, ho.date, ho.location, ho.serviceType]

variable {db : Db}

theorem edited_of_update_lines (p : Line → Bool) {f : Table.Assignment Line}
    (hf : ∀ l, Line.Kept l (f.apply l)) : Edited db { db with lines := db.lines.update p f } where
  lists := rfl
  line l hl := by
    by_cases hp : p l = true
    · exact ⟨_, Table.mem_update_iff.mpr ⟨l, hl, .inl ⟨hp, rfl⟩⟩, hf l⟩
    · exact ⟨_, Table.mem_update_iff.mpr ⟨l, hl, .inr ⟨hp, rfl⟩⟩, Line.Kept.refl l⟩
  order id o ho := ⟨o, ho, Order.Kept.refl o⟩
  unlocked l' hl' := by
    right
    obtain ⟨l, hl, ⟨_, rfl⟩ | ⟨_, rfl⟩⟩ := Table.mem_update_iff.mp hl'
    · exact ⟨l, hl, hf l⟩
    · exact ⟨l', hl, Line.Kept.refl l'⟩

theorem edited_of_cancelOrder (db : Db) (p : Order → Bool) :
    Edited db { db with orders := db.orders.update p setCancelled } where
  lists := rfl
  line l hl := ⟨l, hl, Line.Kept.refl l⟩
  order id o ho := by
    refine ⟨Table.updated p setCancelled o, by rw [Table.get?_update, ho]; rfl, ?_⟩
    unfold Table.updated
    split
    · exact ⟨rfl, rfl, rfl, fun _ => rfl⟩
    · exact Order.Kept.refl o
  unlocked l' hl' := .inr ⟨l', hl', Line.Kept.refl l'⟩

theorem edited_of_placeOrder (db : Db) (o : Order) :
    Edited db { db with orders := placeOrder cfg db.orders o } where
  lists := rfl
  line l hl := ⟨l, hl, Line.Kept.refl l⟩
  order id o' ho' := by
    refine ⟨o', ?_, Order.Kept.refl o'⟩
    show (placeOrder cfg db.orders o).get? id = some o'
    unfold placeOrder
    split
    · exact Table.get?_put_of_some ho'
    · exact ho'
  unlocked l' hl' := .inr ⟨l', hl', Line.Kept.refl l'⟩

theorem mem_addLine (h : l' ∈ (addLine db l).rows) :
    l' ∈ db.lines.rows ∨ l' = { l with lockedAt := none, dailyListId := none } := by
  unfold addLine at h
  split at h
  · cases hfresh : db.lines.get? (key { l with lockedAt := none, dailyListId := none }) with
    | some u => exact .inl (by rwa [Table.put_of_present hfresh] at h)
    | none => exact (Table.mem_put hfresh).mp h
  · exact .inl h

theorem mem_addLine_of_mem (h : l' ∈ db.lines.rows) : l' ∈ (addLine db l).rows := by
  unfold addLine
  split
  · cases hfresh : db.lines.get? (key { l with lockedAt := none, dailyListId := none }) with
    | some u => rwa [Table.put_of_present hfresh]
    | none => exact (Table.mem_put hfresh).mpr (.inl h)
  · exact h

theorem edited_of_addLine (db : Db) (l : Line) : Edited db { db with lines := addLine db l } where
  lists := rfl
  line l' hl' := ⟨l', mem_addLine_of_mem hl', Line.Kept.refl l'⟩
  order id o ho := ⟨o, ho, Order.Kept.refl o⟩
  unlocked l' hl' := by
    rcases mem_addLine hl' with hold | rfl
    · exact .inr ⟨l', hold, Line.Kept.refl l'⟩
    · exact .inl rfl

/-- The steps that are not of the scheduler. -/
def FeedEvent.isEdit : FeedEvent → Bool
  | .find _ => false
  | .pick => false
  | .deliver _ _ => false
  | _ => true

variable {s : Feed} {event : FeedEvent}

theorem feedStep_edit (cfg : Config) (h : event.isEdit = true) :
    Edited s.db (feedStep cfg s event).db ∧ (feedStep cfg s event).queue = s.queue ∧
      (feedStep cfg s event).sending = s.sending := by
  cases event with
  | placeOrder o => exact ⟨edited_of_placeOrder s.db o, rfl, rfl⟩
  | addLine now l => exact ⟨edited_of_addLine s.db l, rfl, rfl⟩
  | cancelOrder id => exact ⟨edited_of_cancelOrder s.db _, rfl, rfl⟩
  | cancelLine id =>
    exact ⟨edited_of_update_lines _ fun l => ⟨rfl, rfl, rfl, rfl, rfl, fun _ => rfl, fun h => h⟩,
      rfl, rfl⟩
  | skipLine id =>
    exact ⟨edited_of_update_lines _ fun l => ⟨rfl, rfl, rfl, rfl, rfl, fun _ => rfl, fun _ => rfl⟩,
      rfl, rfl⟩
  | find now => cases h
  | pick => cases h
  | deliver now messageId => cases h

variable {db' : Db} {id : Nat}

theorem cancelled_edit (h : Edited db db') (hcancelled : Cancelled db id) : Cancelled db' id := by
  obtain ⟨l, hl, hid, hwhy⟩ := hcancelled
  obtain ⟨l', hl', hkept⟩ := h.line l hl
  refine ⟨l', hl', hkept.id.trans hid, ?_⟩
  rcases hwhy with hstatus | hskipped | ⟨o, ho, hstatus⟩
  · exact .inl (hkept.cancelled hstatus)
  · exact .inr (.inl (hkept.skipped hskipped))
  · obtain ⟨o', ho', hokept⟩ := h.order _ o ho
    exact .inr (.inr ⟨o', by rw [hkept.orderId]; exact ho', hokept.cancelled hstatus⟩)

variable {b : Bucket}

theorem madeDue_edit (h : Edited db db') {r : Line × Order} (hr : r ∈ madeDue db b) :
    Cancelled db' r.1.id ∨ ∃ r' ∈ madeDue db' b, r'.1.id = r.1.id := by
  obtain ⟨l, o⟩ := r
  obtain ⟨hjoined, hunlocked, hbucket⟩ := mem_madeDue.mp hr
  obtain ⟨hl, ho⟩ := mem_joined.mp hjoined
  obtain ⟨l', hl', hkept⟩ := h.line l hl
  obtain ⟨o', ho', hokept⟩ := h.order _ o ho
  rw [← hkept.orderId] at ho'
  by_cases hlive : l'.recurrenceSkipped = false ∧ o'.status ≠ .cancelled
  · right
    refine ⟨(l', o'), mem_madeDue.mpr ⟨mem_joined.mpr ⟨hl', ho'⟩, ?_, ?_⟩, hkept.id⟩
    · exact unlocked_iff.mpr ⟨hkept.lockedAt.trans (unlocked_iff.mp hunlocked).1, hlive.1, hlive.2⟩
    · rw [bucketOf_kept hkept hokept, hbucket]
  · left
    refine ⟨l', hl', hkept.id, .inr ?_⟩
    by_cases hskipped : l'.recurrenceSkipped = true
    · exact .inl hskipped
    · refine .inr ⟨o', ho', ?_⟩
      by_contra hstatus
      exact hlive ⟨Bool.eq_false_iff.mpr hskipped, hstatus⟩

/-! ## The invariant -/

def Belongs (db : Db) (id vendorId : Nat) (listDate : Int) : Prop :=
  ∃ l ∈ db.lines.rows, l.id = id ∧ l.vendorId = some vendorId ∧
    ∃ o, db.orders.get? l.orderId = some o ∧ o.deliveryDate = some listDate

def Locked (db : Db) (id : Nat) : Prop := ∃ l ∈ db.lines.rows, l.id = id ∧ l.lockedAt.isSome = true

/-- The states of runs of sound steps. -/
structure FeedInv (cfg : Config) (s : Feed) : Prop where
  located : Located cfg s.db.orders
  queueNodup : s.queue.Nodup
  onPaper : ∀ b ∈ s.queue, OnPaper cfg b
  unsent : ∀ list ∈ s.db.lists.rows, list.sentAt = none → s.sending = some list.id
  atHand : ∀ id, s.sending = some id → ∃ list ∈ s.db.lists.rows, list.id = id ∧
    list.sentAt = none ∧ list.emailStatus = .neverSent ∧ list.recipientEmail.isSome = true ∧
      list.bucket ∉ s.queue
  onList : ∀ list ∈ s.db.lists.rows, ∀ id ∈ list.lineIds,
    Belongs s.db id list.bucket.vendorId list.bucket.listDate ∧
      (list.sentAt.isSome = true → Locked s.db id)
  locked : ∀ l ∈ s.db.lines.rows, l.lockedAt.isSome = true → ∃ list ∈ s.db.lists.rows,
    list.sentAt.isSome = true ∧ l.dailyListId = some list.id ∧ l.id ∈ list.lineIds
  once : ∀ list ∈ s.db.lists.rows, ∀ list' ∈ s.db.lists.rows, ∀ id ∈ list.lineIds,
    id ∈ list'.lineIds → list' = list

theorem FeedInv.start : FeedInv cfg Feed.start where
  located _ h := absurd h List.not_mem_nil
  queueNodup := List.nodup_nil
  onPaper _ h := absurd h List.not_mem_nil
  unsent _ h := absurd h List.not_mem_nil
  atHand _ h := by cases h
  onList _ h := absurd h List.not_mem_nil
  locked _ h := absurd h List.not_mem_nil
  once _ h := absurd h List.not_mem_nil

theorem belongs_edit (h : Edited db db') {vendorId : Nat} {listDate : Int}
    (hbelongs : Belongs db id vendorId listDate) : Belongs db' id vendorId listDate := by
  obtain ⟨l, hl, hid, hvendor, o, ho, hdate⟩ := hbelongs
  obtain ⟨l', hl', hkept⟩ := h.line l hl
  obtain ⟨o', ho', hokept⟩ := h.order _ o ho
  exact ⟨l', hl', hkept.id.trans hid, hkept.vendorId.trans hvendor, o',
    by rw [hkept.orderId]; exact ho', hokept.date.trans hdate⟩

theorem locked_edit (h : Edited db db') (hlocked : Locked db id) : Locked db' id := by
  obtain ⟨l, hl, hid, hsome⟩ := hlocked
  obtain ⟨l', hl', hkept⟩ := h.line l hl
  exact ⟨l', hl', hkept.id.trans hid, by rw [hkept.lockedAt]; exact hsome⟩

theorem located_edit (h : Located cfg s.db.orders)
    (hedit : event.isEdit = true) : Located cfg (feedStep cfg s event).db.orders := by
  cases event with
  | placeOrder o =>
    show Located cfg (placeOrder cfg s.db.orders o)
    unfold placeOrder
    split
    · rename_i hfk
      intro o' ho' d hd
      cases hfresh : s.db.orders.get? (key o) with
      | some u =>
        rw [Table.put_of_present hfresh] at ho'
        exact h o' ho' d hd
      | none =>
        rcases (Table.mem_put hfresh).mp ho' with hold | rfl
        · exact h o' hold d hd
        · rw [hd] at hfk
          exact hfk
    · exact h
  | cancelOrder id =>
    intro o' ho' d hd
    obtain ⟨o, ho, ⟨_, rfl⟩ | ⟨_, rfl⟩⟩ := Table.mem_update_iff.mp ho'
    · exact h o ho d hd
    · exact h o' ho d hd
  | addLine now l => exact h
  | cancelLine id => exact h
  | skipLine id => exact h
  | find now => cases hedit
  | pick => cases hedit
  | deliver now messageId => cases hedit

theorem FeedInv.edit (h : FeedInv cfg s)
    (hedit : event.isEdit = true) : FeedInv cfg (feedStep cfg s event) := by
  obtain ⟨hedited, hqueue, hsending⟩ := feedStep_edit cfg (s := s) hedit
  refine ⟨located_edit h.located hedit, ?_, ?_, ?_, ?_, ?_, ?_, ?_⟩
  · rw [hqueue]
    exact h.queueNodup
  · rw [hqueue]
    exact h.onPaper
  · rw [hedited.lists, hsending]
    exact h.unsent
  · rw [hedited.lists, hsending, hqueue]
    exact h.atHand
  · rw [hedited.lists]
    intro list hlist id hid
    obtain ⟨hbelongs, hlocked⟩ := h.onList list hlist id hid
    exact ⟨belongs_edit hedited hbelongs, fun hsent => locked_edit hedited (hlocked hsent)⟩
  · rw [hedited.lists]
    intro l' hl' hlocked
    rcases hedited.unlocked l' hl' with hnone | ⟨l, hl, hkept⟩
    · rw [hnone] at hlocked
      cases hlocked
    · rw [hkept.dailyListId, hkept.id]
      rw [hkept.lockedAt] at hlocked
      exact h.locked l hl hlocked
  · rw [hedited.lists]
    exact h.once

/-! ## A tick finds its buckets -/

theorem FeedInv.find (h : FeedInv cfg s) (now : Int) :
    FeedInv cfg (feedStep cfg s (.find now)) := by
  dsimp only [feedStep]
  split
  · rename_i hidle
    refine ⟨h.located, nodup_findDueBuckets cfg now s.db, ?_, h.unsent, ?_, h.onList, h.locked,
      h.once⟩
    · intro b hb
      exact onPaper_of_open (mem_findDueBuckets hb).1
    · intro id hid
      rw [show s.sending = none from hidle.2] at hid
      cases hid
  · exact h

/-! ## The next bucket -/

theorem le_foldr_max {n : Nat} {ns : List Nat} (h : n ∈ ns) : n ≤ ns.foldr max 0 := by
  induction ns with
  | nil => cases h
  | cons m ns ih =>
    rcases List.mem_cons.mp h with rfl | htail
    · exact le_max_left _ _
    · exact (ih htail).trans (le_max_right _ _)

theorem freshId_fresh (lists : Table VendorDailyList) : lists.get? (freshId lists) = none := by
  rw [Table.get?_eq_none]
  intro list hlist hid
  have hle := le_foldr_max (List.mem_map_of_mem (f := VendorDailyList.id) hlist)
  have heq : list.id = (lists.rows.map VendorDailyList.id).foldr max 0 + 1 := hid
  omega

/-- The list that `pick` records for a bucket. -/
def pickedList (cfg : Config) (db : Db) (b : Bucket) : VendorDailyList :=
  newVersion cfg db.lists (freshId db.lists) b (payloadLines cfg db b)

/-- The scheduler with a new list at hand. -/
def withPicked (cfg : Config) (s : Feed) (b : Bucket) (rest : List Bucket) : Feed where
  db := { s.db with lists := s.db.lists.put (pickedList cfg s.db b) }
  queue := rest
  sending := some (freshId s.db.lists)

theorem rows_withPicked (s : Feed) (b : Bucket) (rest : List Bucket) :
    (withPicked cfg s b rest).db.lists.rows = s.db.lists.rows ++ [pickedList cfg s.db b] :=
  Table.put_of_fresh (freshId_fresh s.db.lists)

theorem assemble_eq (h : OnPaper cfg b) (db : Db) :
    assemble cfg db b = .ok (payloadLines cfg db b) := by
  obtain ⟨v, hvendor, hmode, _⟩ := h
  unfold assemble
  rw [hvendor]
  exact if_neg hmode

theorem findUnsent_eq_none (h : FeedInv cfg s) (hsending : s.sending = none)
    (b : Bucket) : findUnsentRowForBucket s.db.lists b = none := by
  unfold findUnsentRowForBucket
  rw [List.filter_eq_nil_iff.mpr]
  · rfl
  · intro list hlist hcond
    rw [Bool.and_eq_true, Bool.and_eq_true] at hcond
    have hunsent := h.unsent list hlist (Option.isNone_iff_eq_none.mp hcond.1.2)
    rw [hsending] at hunsent
    cases hunsent

theorem pick_cases (h : FeedInv cfg s) : (pick cfg s = s ∧ (s.sending ≠ none ∨ s.queue = [])) ∨
      ∃ b rest, s.sending = none ∧ s.queue = b :: rest ∧
        ((pick cfg s = { s with queue := rest } ∧
            (sentAlready s.db b = true ∨ payloadLines cfg s.db b = [])) ∨
          (sentAlready s.db b = false ∧ pick cfg s = withPicked cfg s b rest)) := by
  cases hsending : s.sending with
  | some id =>
    left
    refine ⟨?_, .inl (by simp)⟩
    unfold pick
    rw [hsending]
  | none =>
    cases hqueue : s.queue with
    | nil =>
      left
      refine ⟨?_, .inr rfl⟩
      unfold pick
      rw [hsending, hqueue]
    | cons b rest =>
      right
      refine ⟨b, rest, rfl, rfl, ?_⟩
      have hok := assemble_eq (h.onPaper b (by rw [hqueue]; exact List.mem_cons_self)) s.db
      unfold pick
      rw [hsending, hqueue]
      dsimp only
      rw [findUnsent_eq_none h hsending b, hok]
      cases hsent : sentAlready s.db b with
      | true => exact .inl ⟨rfl, .inl rfl⟩
      | false =>
        cases hpayload : payloadLines cfg s.db b with
        | nil => exact .inl ⟨rfl, .inr rfl⟩
        | cons line lines =>
          right
          refine ⟨rfl, ?_⟩
          unfold withPicked pickedList
          rw [hpayload]
          rfl

theorem mem_pickedList (h : FeedInv cfg s)
    (hagrees : Agrees cfg s.db b) (honPaper : OnPaper cfg b) :
    id ∈ (pickedList cfg s.db b).lineIds ↔ ∃ r ∈ madeDue s.db b, r.1.id = id := by
  obtain ⟨payload, hok, hperm⟩ := assemble_of_agrees h.located honPaper hagrees
  have hpayload : payload = payloadLines cfg s.db b := by
    rw [assemble_eq honPaper] at hok
    exact (Except.ok.inj hok).symm
  show id ∈ (payloadLines cfg s.db b).map PayloadLine.lineId ↔ _
  rw [← hpayload, hperm.mem_iff, List.mem_map]

theorem FeedInv.pick (h : FeedInv cfg s) (hsound : Sound cfg s .pick) :
    FeedInv cfg (feedStep cfg s .pick) := by
  show FeedInv cfg (DailyList.pick cfg s)
  rcases pick_cases h with ⟨heq, _⟩ | ⟨b, rest, hsending, hqueue, ⟨heq, _⟩ | ⟨_, heq⟩⟩
  · rw [heq]
    exact h
  · rw [heq]
    have hnodup := h.queueNodup
    rw [hqueue] at hnodup
    refine ⟨h.located, (List.nodup_cons.mp hnodup).2, ?_, h.unsent, ?_, h.onList, h.locked, h.once⟩
    · intro b' hb'
      exact h.onPaper b' (by rw [hqueue]; exact List.mem_cons_of_mem _ hb')
    · intro id hid
      rw [show s.sending = none from hsending] at hid
      cases hid
  · rw [heq]
    have hnodup := h.queueNodup
    rw [hqueue] at hnodup
    have honPaper : OnPaper cfg b := h.onPaper b (by rw [hqueue]; exact List.mem_cons_self)
    obtain ⟨hagrees, _⟩ := hsound b (by rw [hqueue]; rfl)
    have hallSent : ∀ list ∈ s.db.lists.rows, list.sentAt.isSome = true := by
      intro list hlist
      cases hsent : list.sentAt with
      | some t => rfl
      | none =>
        have hunsent := h.unsent list hlist hsent
        rw [hsending] at hunsent
        cases hunsent
    -- The lines of the new list are on no other one: those are locked.
    have hapart : ∀ id ∈ (pickedList cfg s.db b).lineIds, ∀ list ∈ s.db.lists.rows,
        id ∉ list.lineIds := by
      intro id hid list hlist hmem
      obtain ⟨⟨l, o⟩, hr, rfl⟩ := (mem_pickedList h hagrees honPaper).mp hid
      obtain ⟨hjoined, hunlocked, _⟩ := mem_madeDue.mp hr
      obtain ⟨l', hl', hid', hlocked⟩ := (h.onList list hlist _ hmem).2 (hallSent list hlist)
      obtain rfl : l' = l := s.db.lines.eq_of_key_eq hl' (mem_joined.mp hjoined).1 hid'
      rw [(unlocked_iff.mp hunlocked).1] at hlocked
      cases hlocked
    refine ⟨h.located, (List.nodup_cons.mp hnodup).2, ?_, ?_, ?_, ?_, ?_, ?_⟩
    · intro b' hb'
      exact h.onPaper b' (by rw [hqueue]; exact List.mem_cons_of_mem _ hb')
    · rw [rows_withPicked]
      intro list hlist hsent
      rcases List.mem_append.mp hlist with hold | hnew
      · have hsome := hallSent list hold
        rw [hsent] at hsome
        cases hsome
      · rw [List.mem_singleton.mp hnew]
        rfl
    · rw [rows_withPicked]
      intro id hid
      obtain rfl : freshId s.db.lists = id := Option.some.inj hid
      refine ⟨pickedList cfg s.db b, List.mem_append_right _ List.mem_cons_self, rfl, rfl, rfl, ?_,
        (List.nodup_cons.mp hnodup).1⟩
      obtain ⟨v, hvendor, _, hemail⟩ := honPaper
      show ((cfg.vendors.get? b.vendorId).bind Vendor.email).isSome = true
      rw [hvendor]
      exact hemail
    · rw [rows_withPicked]
      intro list hlist id hid
      rcases List.mem_append.mp hlist with hold | hnew
      · exact h.onList list hold id hid
      · obtain rfl := List.mem_singleton.mp hnew
        obtain ⟨⟨l, o⟩, hr, rfl⟩ := (mem_pickedList h hagrees honPaper).mp hid
        obtain ⟨hjoined, _, hbucket⟩ := mem_madeDue.mp hr
        obtain ⟨hl, ho⟩ := mem_joined.mp hjoined
        obtain ⟨hvendor, hdate, _, _⟩ := bucketOf_eq_some.mp hbucket
        exact ⟨⟨l, hl, rfl, hvendor, o, ho, hdate⟩, fun hsent => by cases hsent⟩
    · rw [rows_withPicked]
      intro l hl hlocked
      obtain ⟨list, hlist, hrest⟩ := h.locked l hl hlocked
      exact ⟨list, List.mem_append_left _ hlist, hrest⟩
    · rw [rows_withPicked]
      intro list hlist list' hlist' id hid hid'
      rcases List.mem_append.mp hlist with hold | hnew
      · rcases List.mem_append.mp hlist' with hold' | hnew'
        · exact h.once list hold list' hold' id hid hid'
        · obtain rfl := List.mem_singleton.mp hnew'
          exact absurd hid (hapart id hid' list hold)
      · obtain rfl := List.mem_singleton.mp hnew
        rcases List.mem_append.mp hlist' with hold' | hnew'
        · exact absurd hid' (hapart id hid list' hold')
        · exact List.mem_singleton.mp hnew'

/-! ## The send -/

variable {now : Int}

theorem mem_lockLines {listId : Nat} {lineIds : List Nat} {lines : Table Line}
    (h : l' ∈ (lockLines now listId lineIds lines).rows) :
    ∃ l ∈ lines.rows, (l.id ∈ lineIds ∧ l.lockedAt = none ∧
        l' = { l with lockedAt := some now, dailyListId := some listId }) ∨
      ((l.id ∉ lineIds ∨ l.lockedAt.isSome = true) ∧ l' = l) := by
  obtain ⟨l, hl, ⟨hcond, rfl⟩ | ⟨hcond, rfl⟩⟩ := Table.mem_update_iff.mp h
  · rw [Bool.and_eq_true, decide_eq_true_eq, Option.isNone_iff_eq_none] at hcond
    exact ⟨l, hl, .inl ⟨hcond.1, hcond.2, rfl⟩⟩
  · refine ⟨l', hl, .inr ⟨?_, rfl⟩⟩
    by_contra hneither
    rw [not_or, Classical.not_not, Option.not_isSome_iff_eq_none] at hneither
    exact hcond (by simp [hneither.1, hneither.2])

theorem lockLines_mem (now : Int) (listId : Nat) (lineIds : List Nat) {lines : Table Line}
    (hl : l ∈ lines.rows) :
    ∃ l' ∈ (lockLines now listId lineIds lines).rows, l'.id = l.id ∧ l'.orderId = l.orderId ∧
      l'.vendorId = l.vendorId ∧ l'.fulfillmentStatus = l.fulfillmentStatus ∧
      l'.recurrenceSkipped = l.recurrenceSkipped ∧
      (l.lockedAt.isSome = true ∨ l.id ∈ lineIds → l'.lockedAt.isSome = true) ∧
      (l'.lockedAt = l.lockedAt ∨ l.id ∈ lineIds) := by
  by_cases hcond : (decide (l.id ∈ lineIds) && l.lockedAt.isNone) = true
  · refine ⟨_, Table.mem_update_iff.mpr ⟨l, hl, .inl ⟨hcond, rfl⟩⟩, rfl, rfl, rfl, rfl, rfl,
      fun _ => rfl, .inr ?_⟩
    rw [Bool.and_eq_true, decide_eq_true_eq] at hcond
    exact hcond.1
  · refine ⟨_, Table.mem_update_iff.mpr ⟨l, hl, .inr ⟨hcond, rfl⟩⟩, rfl, rfl, rfl, rfl, rfl, ?_,
      .inl rfl⟩
    rintro (hlocked | hid)
    · exact hlocked
    · cases hlocked : l.lockedAt with
      | some t => rfl
      | none => exact absurd (by simp [hid, hlocked]) hcond

/-- The scheduler after the send of a list. -/
def withSent (s : Feed) (now : Int) (messageId : String) (list : VendorDailyList) : Feed where
  db := { s.db with
    lists := s.db.lists.update (fun l' => l'.id == list.id) (markSent now messageId)
    lines := lockLines now list.id list.lineIds s.db.lines }
  queue := s.queue
  sending := none

theorem deliver_cases (h : FeedInv cfg s) (now : Int) (messageId : String) :
    (s.sending = none ∧ deliver s now messageId = s) ∨
      ∃ list ∈ s.db.lists.rows, s.sending = some list.id ∧ list.sentAt = none ∧
        list.bucket ∉ s.queue ∧ deliver s now messageId = withSent s now messageId list := by
  cases hsending : s.sending with
  | none =>
    left
    refine ⟨rfl, ?_⟩
    unfold deliver
    rw [hsending]
    cases s
    cases hsending
    rfl
  | some id =>
    right
    obtain ⟨list, hlist, rfl, hsent, hstatus, hrecipient, hqueue⟩ := h.atHand id hsending
    refine ⟨list, hlist, rfl, hsent, hqueue, ?_⟩
    have hget : (s.sending.bind s.db.lists.get?) = some list := by
      rw [hsending]
      exact Table.get?_of_mem hlist
    unfold deliver
    rw [hget]
    dsimp only
    rw [if_pos (by simp [hsent, hrecipient, hstatus, retryEligible])]
    rfl

variable {messageId : String} {list : VendorDailyList} {list' : VendorDailyList}

theorem mem_withSent (hlist : list ∈ s.db.lists.rows)
    (h : list' ∈ (withSent s now messageId list).db.lists.rows) :
    list' = (markSent now messageId).apply list ∨
      (list' ∈ s.db.lists.rows ∧ list'.id ≠ list.id) := by
  obtain ⟨old, hold, ⟨hid, rfl⟩ | ⟨hid, rfl⟩⟩ := Table.mem_update_iff.mp h
  · left
    rw [s.db.lists.eq_of_key_eq hold hlist (beq_iff_eq.mp hid)]
  · exact .inr ⟨hold, fun heq => hid (beq_iff_eq.mpr heq)⟩

theorem withSent_mem (now : Int) (messageId : String) (list : VendorDailyList)
    (h : list' ∈ s.db.lists.rows) :
    ∃ list'' ∈ (withSent s now messageId list).db.lists.rows, list''.id = list'.id ∧
      list''.lineIds = list'.lineIds ∧ list''.bucket = list'.bucket ∧
      (list'.sentAt.isSome = true ∨ list'.id = list.id → list''.sentAt.isSome = true) := by
  by_cases hid : (list'.id == list.id) = true
  · exact ⟨_, Table.mem_update_iff.mpr ⟨list', h, .inl ⟨hid, rfl⟩⟩, rfl, rfl, rfl, fun _ => rfl⟩
  · refine ⟨_, Table.mem_update_iff.mpr ⟨list', h, .inr ⟨hid, rfl⟩⟩, rfl, rfl, rfl, ?_⟩
    rintro (hsent | heq)
    · exact hsent
    · exact absurd (beq_iff_eq.mpr heq) hid

theorem belongs_withSent {vendorId : Nat} {listDate : Int} (h : Belongs s.db id vendorId listDate) :
    Belongs (withSent s now messageId list).db id vendorId listDate := by
  obtain ⟨l, hl, hid, hvendor, o, ho, hdate⟩ := h
  obtain ⟨l', hl', hid', horder, hvendor', _⟩ := lockLines_mem now list.id list.lineIds hl
  exact ⟨l', hl', hid'.trans hid, hvendor'.trans hvendor, o, by rw [horder]; exact ho, hdate⟩

theorem locked_withSent
    (h : Locked s.db id ∨ id ∈ list.lineIds ∧ ∃ l ∈ s.db.lines.rows, l.id = id) :
    Locked (withSent s now messageId list).db id := by
  have hline : ∃ l ∈ s.db.lines.rows, l.id = id ∧ (l.lockedAt.isSome = true ∨ id ∈ list.lineIds) := by
    rcases h with ⟨l, hl, hid, hlocked⟩ | ⟨hid, l, hl, hlid⟩
    · exact ⟨l, hl, hid, .inl hlocked⟩
    · exact ⟨l, hl, hlid, .inr hid⟩
  obtain ⟨l, hl, rfl, hwhy⟩ := hline
  obtain ⟨l', hl', hid', _, _, _, _, hlocked, _⟩ := lockLines_mem now list.id list.lineIds hl
  exact ⟨l', hl', hid', hlocked hwhy⟩

theorem cancelled_withSent
    (h : Cancelled s.db id) : Cancelled (withSent s now messageId list).db id := by
  obtain ⟨l, hl, hid, hwhy⟩ := h
  obtain ⟨l', hl', hid', horder, _, hstatus, hskipped, _⟩ := lockLines_mem now list.id list.lineIds hl
  refine ⟨l', hl', hid'.trans hid, ?_⟩
  rw [hstatus, hskipped, horder]
  exact hwhy

theorem FeedInv.deliver (h : FeedInv cfg s) (now : Int) (messageId : String) :
    FeedInv cfg (feedStep cfg s (.deliver now messageId)) := by
  show FeedInv cfg (DailyList.deliver s now messageId)
  rcases deliver_cases h now messageId with ⟨_, heq⟩ | ⟨list, hlist, hsending, hsent, hqueue, heq⟩
  · rw [heq]
    exact h
  rw [heq]
  refine ⟨h.located, h.queueNodup, h.onPaper, ?_, ?_, ?_, ?_, ?_⟩
  · intro list' hlist' hnone
    rcases mem_withSent hlist hlist' with rfl | ⟨hold, hne⟩
    · cases hnone
    · have hunsent := h.unsent list' hold hnone
      rw [hsending] at hunsent
      exact absurd (Option.some.inj hunsent).symm hne
  · intro id hid
    cases hid
  · intro list' hlist' id hid
    rcases mem_withSent hlist hlist' with rfl | ⟨hold, _⟩
    · obtain ⟨hbelongs, _⟩ := h.onList list hlist id hid
      have hline := hbelongs
      obtain ⟨l, hl, hlid, _⟩ := hline
      exact ⟨belongs_withSent hbelongs, fun _ => locked_withSent (.inr ⟨hid, l, hl, hlid⟩)⟩
    · obtain ⟨hbelongs, hlocked⟩ := h.onList list' hold id hid
      exact ⟨belongs_withSent hbelongs, fun hsome => locked_withSent (.inl (hlocked hsome))⟩
  · intro l' hl' hlocked
    rcases mem_lockLines hl' with ⟨l, hl, ⟨hid, _, rfl⟩ | ⟨_, rfl⟩⟩
    · obtain ⟨list'', hlist'', hid'', hlines, _, hsome⟩ := withSent_mem now messageId list hlist
      exact ⟨list'', hlist'', hsome (.inr rfl), by rw [hid''], by rw [hlines]; exact hid⟩
    · obtain ⟨list', hlist', hsome, hlistId, hmem⟩ := h.locked l' hl hlocked
      obtain ⟨list'', hlist'', hid'', hlines, _, hsome'⟩ := withSent_mem now messageId list hlist'
      exact ⟨list'', hlist'', hsome' (.inl hsome), by rw [hid'']; exact hlistId,
        by rw [hlines]; exact hmem⟩
  · intro first hfirst second hsecond id hid hid'
    rcases mem_withSent hlist hfirst with rfl | ⟨hold, hne⟩
    · rcases mem_withSent hlist hsecond with rfl | ⟨hold', hne'⟩
      · rfl
      · exact absurd (congrArg VendorDailyList.id (h.once list hlist second hold' id hid hid')) hne'
    · rcases mem_withSent hlist hsecond with rfl | ⟨hold', _⟩
      · exact absurd (congrArg VendorDailyList.id (h.once list hlist first hold id hid' hid)) hne
      · exact h.once first hold second hold' id hid hid'

theorem FeedInv.step (h : FeedInv cfg s)
    (hsound : Sound cfg s event) : FeedInv cfg (feedStep cfg s event) := by
  cases event with
  | find now => exact h.find now
  | pick => exact h.pick hsound
  | deliver now messageId => exact h.deliver now messageId
  | placeOrder o => exact h.edit rfl
  | addLine now l => exact h.edit rfl
  | cancelOrder id => exact h.edit rfl
  | cancelLine id => exact h.edit rfl
  | skipLine id => exact h.edit rfl

end Prequest.DailyList
