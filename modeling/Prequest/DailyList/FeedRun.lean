import Prequest.DailyList.FeedSteps

/-!
# Runs of the scheduler

* `fed_of_sound`: the law for every run of sound steps.
* `projector_is_not_delivered`: a run in which the two queries disagree.
-/

namespace Prequest.DailyList

open Prequest.Lib

variable {cfg : Config}

/-! ## What becomes of a line -/

section

variable (s : Feed) (id : Nat)

/-- The bucket of the line is still to be done. -/
def Waiting (b : Bucket) : Prop :=
  (∃ r ∈ madeDue s.db b, r.1.id = id) ∧ b ∈ s.queue ∧ sentAlready s.db b = false

def InHand : Prop :=
  ∃ list ∈ s.db.lists.rows, s.sending = some list.id ∧ id ∈ list.lineIds

/-- A line that made a bucket due waits for a list, is on one, or is cancelled. -/
def Owed (b : Bucket) : Prop :=
  Belongs s.db id b.vendorId b.listDate ∧
    (Cancelled s.db id ∨ Locked s.db id ∨ Waiting s id b ∨ InHand s id)

end

variable {s : Feed} {id : Nat} {b : Bucket} {events : List FeedEvent} {list : VendorDailyList}

theorem Owed.edit (h : Owed s id b) {event : FeedEvent}
    (hedit : event.isEdit = true) : Owed (feedStep cfg s event) id b := by
  obtain ⟨hedited, hqueue, hsending⟩ := feedStep_edit cfg (s := s) hedit
  refine ⟨belongs_edit hedited h.1, ?_⟩
  rcases h.2 with hcancelled | hlocked | ⟨⟨r, hr, rfl⟩, hb, hsent⟩ | ⟨list, hlist, hhand, hid⟩
  · exact .inl (cancelled_edit hedited hcancelled)
  · exact .inr (.inl (locked_edit hedited hlocked))
  · rcases madeDue_edit hedited hr with hcancelled | hdue
    · exact .inl hcancelled
    · refine .inr (.inr (.inl ⟨hdue, by rw [hqueue]; exact hb, ?_⟩))
      unfold sentAlready
      rw [hedited.lists]
      exact hsent
  · exact .inr (.inr (.inr ⟨list, by rw [hedited.lists]; exact hlist, by rw [hsending]; exact hhand,
      hid⟩))

theorem Owed.find (h : Owed s id b) (now : Int) : Owed (feedStep cfg s (.find now)) id b := by
  dsimp only [feedStep]
  split
  · rename_i hidle
    refine ⟨h.1, ?_⟩
    rcases h.2 with hcancelled | hlocked | ⟨_, hb, _⟩ | ⟨list, _, hhand, _⟩
    · exact .inl hcancelled
    · exact .inr (.inl hlocked)
    · rw [hidle.1] at hb
      cases hb
    · rw [hidle.2] at hhand
      cases hhand
  · exact h

theorem Owed.pick (hinv : FeedInv cfg s) (hsound : Sound cfg s .pick)
    (h : Owed s id b) : Owed (feedStep cfg s .pick) id b := by
  show Owed (DailyList.pick cfg s) id b
  rcases pick_cases hinv with ⟨heq, _⟩ | ⟨b₀, rest, hsending, hqueue, ⟨heq, hwhy⟩ | ⟨_, heq⟩⟩
  · rw [heq]
    exact h
  · rw [heq]
    refine ⟨h.1, ?_⟩
    rcases h.2 with hcancelled | hlocked | ⟨hdue, hb, hsent⟩ | ⟨list, _, hhand, _⟩
    · exact .inl hcancelled
    · exact .inr (.inl hlocked)
    · rw [hqueue] at hb
      rcases List.mem_cons.mp hb with rfl | hrest
      · have honPaper : OnPaper cfg b := hinv.onPaper b (by rw [hqueue]; exact List.mem_cons_self)
        have hmem := (mem_pickedList hinv (hsound b (by rw [hqueue]; rfl)).1 honPaper).mpr hdue
        rcases hwhy with hsome | hnil
        · rw [hsent] at hsome
          cases hsome
        · rw [show (pickedList cfg s.db b).lineIds = [] from congrArg (List.map _) hnil] at hmem
          cases hmem
      · exact .inr (.inr (.inl ⟨hdue, hrest, hsent⟩))
    · rw [hsending] at hhand
      cases hhand
  · rw [heq]
    refine ⟨h.1, ?_⟩
    rcases h.2 with hcancelled | hlocked | ⟨hdue, hb, hsent⟩ | ⟨list, _, hhand, _⟩
    · exact .inl hcancelled
    · exact .inr (.inl hlocked)
    · rw [hqueue] at hb
      rcases List.mem_cons.mp hb with rfl | hrest
      · have honPaper : OnPaper cfg b := hinv.onPaper b (by rw [hqueue]; exact List.mem_cons_self)
        refine .inr (.inr (.inr ⟨pickedList cfg s.db b, ?_, rfl, ?_⟩))
        · rw [rows_withPicked]
          exact List.mem_append_right _ List.mem_cons_self
        · exact (mem_pickedList hinv (hsound b (by rw [hqueue]; rfl)).1 honPaper).mpr hdue
      · refine .inr (.inr (.inl ⟨hdue, hrest, ?_⟩))
        unfold sentAlready
        rw [rows_withPicked, List.any_append]
        exact Bool.or_eq_false_iff.mpr ⟨hsent, by simp [pickedList, newVersion]⟩
    · rw [hsending] at hhand
      cases hhand

theorem madeDue_withSent {now : Int} {messageId : String} {r : Line × Order}
    (hr : r ∈ madeDue s.db b) (hid : r.1.id ∉ list.lineIds) :
    ∃ r' ∈ madeDue (withSent s now messageId list).db b, r'.1.id = r.1.id := by
  obtain ⟨l, o⟩ := r
  obtain ⟨hjoined, hunlocked, hbucket⟩ := mem_madeDue.mp hr
  obtain ⟨hl, ho⟩ := mem_joined.mp hjoined
  obtain ⟨l', hl', hid', horder, hvendor, _, hskipped, _, hlocked⟩ := lockLines_mem now list.id list.lineIds hl
  refine ⟨(l', o), mem_madeDue.mpr ⟨mem_joined.mpr ⟨hl', by rw [horder]; exact ho⟩, ?_, ?_⟩, hid'⟩
  · obtain ⟨hnone, hlive, hstatus⟩ := unlocked_iff.mp hunlocked
    exact unlocked_iff.mpr ⟨(hlocked.resolve_right hid).trans hnone, hskipped.trans hlive, hstatus⟩
  · obtain ⟨hlvendor, hrest⟩ := bucketOf_eq_some.mp hbucket
    exact bucketOf_eq_some.mpr ⟨hvendor.trans hlvendor, hrest⟩

theorem Owed.deliver (hinv : FeedInv cfg s) (h : Owed s id b)
    (now : Int) (messageId : String) : Owed (feedStep cfg s (.deliver now messageId)) id b := by
  show Owed (DailyList.deliver s now messageId) id b
  rcases deliver_cases hinv now messageId with ⟨_, heq⟩ | ⟨list, hlist, hsending, _, hqueue, heq⟩
  · rw [heq]
    exact h
  rw [heq]
  refine ⟨belongs_withSent h.1, ?_⟩
  have hbelongs := h.1
  obtain ⟨l, hl, hlid, _⟩ := hbelongs
  rcases h.2 with hcancelled | hlocked | ⟨⟨r, hr, hrid⟩, hb, hsent⟩ | ⟨list', hlist', hhand, hid⟩
  · exact .inl (cancelled_withSent hcancelled)
  · exact .inr (.inl (locked_withSent (.inl hlocked)))
  · by_cases hmem : id ∈ list.lineIds
    · exact .inr (.inl (locked_withSent (.inr ⟨hmem, l, hl, hlid⟩)))
    · refine .inr (.inr (.inl ⟨?_, hb, ?_⟩))
      · rw [← hrid] at hmem ⊢
        exact madeDue_withSent hr hmem
      · -- The list that is sent is of another bucket.
        have hother : list.bucket ≠ b := fun heq => hqueue (by rw [heq]; exact hb)
        refine List.any_eq_false.mpr fun list' hlist' => ?_
        rcases mem_withSent hlist hlist' with rfl | ⟨hold, _⟩
        · simp [markSent, hother]
        · exact List.any_eq_false.mp hsent list' hold
  · rw [hsending] at hhand
    obtain rfl : list' = list := s.db.lists.eq_of_key_eq hlist' hlist (Option.some.inj hhand).symm
    exact .inr (.inl (locked_withSent (.inr ⟨hid, l, hl, hlid⟩)))

theorem Owed.step (hinv : FeedInv cfg s) {event : FeedEvent}
    (hsound : Sound cfg s event) (h : Owed s id b) : Owed (feedStep cfg s event) id b := by
  cases event with
  | find now => exact h.find now
  | pick => exact h.pick hinv hsound
  | deliver now messageId => exact h.deliver hinv now messageId
  | placeOrder o => exact h.edit rfl
  | addLine now l => exact h.edit rfl
  | cancelOrder id => exact h.edit rfl
  | cancelLine id => exact h.edit rfl
  | skipLine id => exact h.edit rfl

theorem Owed.settled (hinv : FeedInv cfg s) (h : Owed s id b)
    (hidle : s.Idle) : OnOneSentList s.db id b.vendorId b.listDate ∨ Cancelled s.db id := by
  rcases h.2 with hcancelled | hlocked | ⟨_, hb, _⟩ | ⟨list, _, hhand, _⟩
  · exact .inr hcancelled
  · left
    obtain ⟨l, hl, rfl, hsome⟩ := hlocked
    obtain ⟨list, hlist, hsent, hlistId, hmem⟩ := hinv.locked l hl hsome
    obtain ⟨l₁, hl₁, hid₁, hvendor₁, o₁, ho₁, hdate₁⟩ := h.1
    obtain ⟨⟨l₂, hl₂, hid₂, hvendor₂, o₂, ho₂, hdate₂⟩, _⟩ := hinv.onList list hlist l.id hmem
    obtain rfl : l₁ = l := s.db.lines.eq_of_key_eq hl₁ hl hid₁
    obtain rfl : l₂ = l₁ := s.db.lines.eq_of_key_eq hl₂ hl hid₂
    obtain rfl : o₁ = o₂ := Option.some.inj (ho₁.symm.trans ho₂)
    have hvendor := Option.some.inj (hvendor₂.symm.trans hvendor₁)
    have hdate := Option.some.inj (hdate₂.symm.trans hdate₁)
    exact ⟨list, hlist, hsent, hvendor, hdate, hmem, ⟨l₂, hl, rfl, hsome, hlistId⟩,
      fun list' hlist' hmem' => hinv.once list hlist list' hlist' _ hmem hmem'⟩
  · rw [hidle.1] at hb
    cases hb
  · rw [hidle.2] at hhand
    cases hhand

/-! ## The law -/

theorem feedInv_of_sound (h : Guarded (feedStep cfg) (Sound cfg) Feed.start events) :
    FeedInv cfg (feed cfg events) :=
  Guarded.invariant (fun _ _ hinv hsound => hinv.step hsound) FeedInv.start h

theorem owed_of_sound (hinv : FeedInv cfg s) (h : Guarded (feedStep cfg) (Sound cfg) s events)
    (howed : Owed s id b) : Owed (run (feedStep cfg) s events) id b :=
  (Guarded.invariant (I := fun s => FeedInv cfg s ∧ Owed s id b)
    (fun _ _ hboth hsound => ⟨hboth.1.step hsound, hboth.2.step hboth.1 hsound⟩) ⟨hinv, howed⟩ h).2

theorem owed_of_found (hidle : s.Idle) {now : Int}
    (hb : b ∈ findDueBuckets cfg now s.db) {r : Line × Order} (hr : r ∈ madeDue s.db b) :
    Owed (feedStep cfg s (.find now)) r.1.id b := by
  have hstep : feedStep cfg s (.find now) = { s with queue := findDueBuckets cfg now s.db } :=
    if_pos hidle
  rw [hstep]
  obtain ⟨l, o⟩ := r
  obtain ⟨hjoined, _, hbucket⟩ := mem_madeDue.mp hr
  obtain ⟨hl, ho⟩ := mem_joined.mp hjoined
  obtain ⟨hvendor, hdate, _, _⟩ := bucketOf_eq_some.mp hbucket
  exact ⟨⟨l, hl, rfl, hvendor, o, ho, hdate⟩,
    .inr (.inr (.inl ⟨⟨(l, o), hr, rfl⟩, hb, (mem_findDueBuckets hb).2⟩))⟩

theorem noneCancelled_of_pick (hinv : FeedInv cfg s) (hsound : Sound cfg s .pick)
    (hlist : list ∈ (feedStep cfg s .pick).db.lists.rows) (hnew : list ∉ s.db.lists.rows)
    (hid : id ∈ list.lineIds) : ¬Cancelled s.db id := by
  have hlist' : list ∈ (DailyList.pick cfg s).db.lists.rows := hlist
  rcases pick_cases hinv with ⟨heq, _⟩ | ⟨b, rest, _, hqueue, ⟨heq, _⟩ | ⟨_, heq⟩⟩
  · rw [heq] at hlist'
    exact absurd hlist' hnew
  · rw [heq] at hlist'
    exact absurd hlist' hnew
  · rw [heq, rows_withPicked] at hlist'
    obtain rfl := List.mem_singleton.mp ((List.mem_append.mp hlist').resolve_left hnew)
    obtain ⟨hagrees, hlive⟩ := hsound b (by rw [hqueue]; rfl)
    have honPaper : OnPaper cfg b := hinv.onPaper b (by rw [hqueue]; exact List.mem_cons_self)
    obtain ⟨⟨l, o⟩, hr, rfl⟩ := (mem_pickedList hinv hagrees honPaper).mp hid
    obtain ⟨hjoined, hunlocked, _⟩ := mem_madeDue.mp hr
    obtain ⟨hl, ho⟩ := mem_joined.mp hjoined
    obtain ⟨_, hskipped, hstatus⟩ := unlocked_iff.mp hunlocked
    rintro ⟨l', hl', hid', hwhy⟩
    obtain rfl : l' = l := s.db.lines.eq_of_key_eq hl' hl hid'
    rcases hwhy with hcancelled | hskip | ⟨o', ho', hcancelled⟩
    · exact hlive (l', o) hr hcancelled
    · rw [hskipped] at hskip
      cases hskip
    · obtain rfl : o' = o := Option.some.inj (ho'.symm.trans ho)
      exact hstatus hcancelled

/-- Every run of sound steps feeds every due line. -/
theorem fed_of_sound (cfg : Config) (events : List FeedEvent)
    (h : Guarded (feedStep cfg) (Sound cfg) Feed.start events) : Fed cfg events where
  exactly := by
    rintro pre now post rfl hidle b hb
    have hpre := feedInv_of_sound h.take
    exact assemble_of_agrees hpre.located (onPaper_of_open (mem_findDueBuckets hb).1)
      ((guarded_append.mp h).2.1 hidle b hb)
  delivered := by
    rintro pre now mid post rfl hidle hidle' b hb r hr
    have hpre := feedInv_of_sound h.take
    obtain ⟨hfind, hrest⟩ := (guarded_append.mp h).2
    have hmid : Guarded (feedStep cfg) (Sound cfg) (feedStep cfg (feed cfg pre) (.find now)) mid :=
      hrest.take
    have hrun : feed cfg (pre ++ .find now :: mid) =
        run (feedStep cfg) (feedStep cfg (feed cfg pre) (.find now)) mid := run_append _ _ _
    have hinv : FeedInv cfg (run (feedStep cfg) (feedStep cfg (feed cfg pre) (.find now)) mid) :=
      Guarded.invariant (fun _ _ hinv hsound => hinv.step hsound) (hpre.step hfind) hmid
    rw [hrun] at hidle' ⊢
    exact (owed_of_sound (hpre.step hfind) hmid (owed_of_found hidle hb hr)).settled hinv hidle'
  further := by
    rintro pre now l mid now' mid' post rfl hnew o ho b hb hsent c hc hlate _ _ _ _
    exact absurd ⟨hnew, o, ho, b, hb, hsent, c, hc, hlate⟩ (guarded_append.mp h).2.1
  noneCancelled := by
    rintro pre post rfl list hlist hold id hid
    have hpre := feedInv_of_sound h.take
    have hstep : feed cfg (pre ++ [.pick]) = feedStep cfg (feed cfg pre) .pick := run_append _ _ _
    rw [hstep] at hlist
    exact noneCancelled_of_pick hpre (guarded_append.mp h).2.1 hlist hold hid

/-! ## Lunch and a projector -/

/-- A caterer that gets its list at 19:00 on the day before, and rents out projectors as well. -/
def lunchConfig : Config where
  vendors := Table.empty.put ⟨1, .paperOnly, true, some "kitchen@example.com", none, some 68400⟩
  spaces := Table.empty.put ⟨10, none⟩
  menus := (Table.empty.put ⟨1, "catering"⟩).put ⟨2, "av_equipment"⟩
  menuItems := (Table.empty.put ⟨1, 1⟩).put ⟨2, 2⟩
  toInstant t := t - 3600
  toLocal t := t + 3600
  maxPerTick := 200

def evening (menuItemId : Nat) : List FeedEvent :=
  [.placeOrder ⟨1, some 10, some 1, some 43200, some 8, .submitted, none⟩,
    .addLine 40000 ⟨1, 1, some 1, some menuItemId, 5, 8, .ordered, false, none, none⟩,
    .find 64800, .pick, .deliver 64860 "m-1"]

/-- Lunch is on the menu of the type that an order has by default. -/
theorem fed_of_sound_lunch : Fed lunchConfig (evening 1) := by
  refine fed_of_sound lunchConfig (evening 1) ⟨trivial, ?_, ?_, ?_, trivial, trivial⟩
  · rintro ⟨_, o, ho, b, _, hsent, _⟩
    cases hsent
  · intro _
    decide
  · intro b hb
    have hhead : some (⟨1, some 10, "catering", 1⟩ : Bucket) = some b := hb
    obtain rfl := Option.some.inj hhead
    decide

/-- The bucket of the projector is found as catering, and its list has no line. -/
theorem projector_is_not_delivered : ¬∀ cfg events, Fed cfg events := by
  intro h
  obtain ⟨payload, hok, hperm⟩ := (h lunchConfig (evening 2)).exactly
    ((evening 2).take 2) 64800 [.pick, .deliver 64860 "m-1"] rfl (by decide)
    ⟨1, some 10, "catering", 1⟩ (by decide)
  have hempty : payload = [] := by
    have hnone : assemble lunchConfig (feed lunchConfig ((evening 2).take 2)).db
        ⟨1, some 10, "catering", 1⟩ = .ok [] := by decide
    exact Except.ok.inj (hok.symm.trans hnone)
  rw [hempty] at hperm
  exact absurd hperm.length_eq (by decide)

end Prequest.DailyList
