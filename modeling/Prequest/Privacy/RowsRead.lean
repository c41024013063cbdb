import Prequest.Privacy.ErasureRounds

/-!
# The rows that a round reads

One round of the loop of a fulfilment, between the rounds before and after it.

* `endedRows_after`, `breakdown_after`: how many they are, and what is counted.
-/

namespace Prequest.Privacy

open Prequest.Lib Prequest.Visitors

/-! ## The rows of a person -/

def Store.ofSubject (s : Store) (tenantId subject : Uuid) (r : Row) : Bool :=
  r.tenantId == tenantId && (r.persons s.users).contains subject

def endedRows (s s' : Store) (category : DataCategory) : Nat :=
  s.rows.rows.countP fun r =>
    r.category == category && r.live && !(s'.rows.rows.any fun r' => key r' == key r && r'.live)

def liveAuditEvent (s : Store) (tenantId subject : Uuid) (r : Row) : Bool :=
  r.live && r.category == .auditEvents && s.ofSubject tenantId subject r

variable {r : Row}

theorem Store.ofSubject_iff {s : Store} {tenantId subject : Uuid} :
    s.ofSubject tenantId subject r = true ↔
      r.tenantId = tenantId ∧ subject ∈ r.persons s.users := by
  simp [Store.ofSubject]

theorem Store.ofSubject_bare (s : Store) (tenantId subject : Uuid) (r : Row) :
    s.ofSubject tenantId subject r.bare = s.ofSubject tenantId subject r := by
  simp [Store.ofSubject]

theorem Store.ofSubject_users {s s' : Store} (h : s'.users = s.users) (tenantId subject : Uuid)
    (r : Row) : s'.ofSubject tenantId subject r = s.ofSubject tenantId subject r := by
  unfold Store.ofSubject
  rw [h]

theorem exists_adapter {users : List UserRow} {subject : Uuid} (hlive : r.live = true)
    (hsubject : subject ∈ r.persons users) :
    ∃ a ∈ registry, a.category = r.category ∧ a.belongsTo users subject r = true ∧
      (a.erasureLimit = none ∨ a.category = .auditEvents ∧ a.erasureLimit = some scanLimit) := by
  cases r with
  | person p =>
    have hid : subject = p.id := List.mem_singleton.mp hsubject
    refine ⟨personsAdapter, by simp [registry], rfl, ?_, .inl rfl⟩
    show (p.id == subject && p.anonymizedAt.isNone) = true
    rw [hid, beq_self_eq_true, Bool.true_and]
    exact hlive
  | visitor v =>
    refine ⟨visitorRecordsAdapter, by simp [registry], rfl, ?_, .inl rfl⟩
    show ((v.personId == some subject || v.hostPersonId == subject) && v.anonymizedAt.isNone) = true
    rw [Bool.and_eq_true]
    refine ⟨?_, hlive⟩
    rcases List.mem_append.mp hsubject with hvisitor | hhost
    · rw [Option.mem_toList.mp hvisitor]
      simp
    · rw [List.mem_singleton.mp hhost]
      simp
  | auditEvent e =>
    refine ⟨auditEventsAdapter, by simp [registry], rfl, ?_, .inr ⟨rfl, rfl⟩⟩
    show (e.actorPerson users == some subject && !e.isAnonymized) = true
    rw [Option.mem_toList.mp hsubject, beq_self_eq_true, Bool.true_and]
    exact hlive
  | notification n =>
    refine ⟨emailNotificationsAdapter, by simp [registry], rfl, ?_, .inl rfl⟩
    show (n.recipientPersonId == some subject) = true
    rw [Option.mem_toList.mp hsubject]
    simp
  | webhookEvent w => cases hsubject

theorem bare_eq_self (h : r.category ≠ .visitorRecords) : r.bare = r := by
  cases r with
  | visitor v => exact absurd rfl h
  | person | auditEvent | notification | webhookEvent => rfl

/-! ## A round in its place -/

section Round

variable {env : Env} {input : FulfillErasureInput} {subject : Uuid} {s : Store}

def progressBefore (env : Env) (input : FulfillErasureInput) (subject : Uuid) (s : Store)
    (pre : List Adapter) : Progress :=
  pre.foldl (eraseCategory env input subject) ⟨s, fun _ => none, 0, false⟩

def rowsRead (env : Env) (input : FulfillErasureInput) (subject : Uuid) (s : Store)
    (pre : List Adapter) (a : Adapter) : List Row :=
  a.erasureRows (input.order a.category) (progressBefore env input subject s pre).store
    input.tenantId subject

variable {a : Adapter}

theorem adapter_eq_of_category {b : Adapter} (ha : a ∈ registry) (hb : b ∈ registry)
    (h : a.category = b.category) : a = b :=
  List.inj_on_of_nodup_map registry_nodup ha hb h

variable {pre post : List Adapter}

theorem split_ne (hsplit : registry = pre ++ a :: post) :
    (∀ b ∈ pre, b.category ≠ a.category) ∧ ∀ b ∈ post, b.category ≠ a.category := by
  have hnodup := registry_nodup
  rw [hsplit, List.map_append, List.map_cons, List.nodup_append, List.nodup_cons] at hnodup
  obtain ⟨_, ⟨hpost, _⟩, hdisjoint⟩ := hnodup
  constructor
  · intro b hb
    exact hdisjoint _ (List.mem_map.mpr ⟨b, hb, rfl⟩) _ List.mem_cons_self
  · intro b hb h
    exact hpost (List.mem_map.mpr ⟨b, hb, h⟩)

theorem split_visitors (hsplit : registry = pre ++ visitorRecordsAdapter :: post) : pre = [] := by
  cases pre with
  | nil => rfl
  | cons b pre =>
    have hb : visitorRecordsAdapter = b := (List.cons.inj hsplit).1
    exact absurd (congrArg Adapter.category hb.symm) ((split_ne hsplit).1 b List.mem_cons_self)

theorem split_sub (hsplit : registry = pre ++ a :: post) :
    pre ⊆ registry ∧ a ∈ registry ∧ post ⊆ registry := by
  rw [hsplit]
  exact ⟨List.subset_append_left _ _, by simp, fun b hb => by simp [hb]⟩

theorem eraseAll_split (hsplit : registry = pre ++ a :: post) : eraseAll env input subject s =
      post.foldl (eraseCategory env input subject)
        (eraseCategory env input subject (progressBefore env input subject s pre) a) := by
  unfold eraseAll progressBefore
  rw [hsplit, List.foldl_append, List.foldl_cons]

theorem before_onlyEnds (hpre : pre ⊆ registry) :
    OnlyEnds s.rows (progressBefore env input subject s pre).store.rows :=
  foldl_onlyEnds hpre ⟨s, fun _ => none, 0, false⟩

theorem before_users (hpre : pre ⊆ registry) :
    (progressBefore env input subject s pre).store.users = s.users :=
  foldl_users hpre ⟨s, fun _ => none, 0, false⟩

variable {r : Row}

theorem mem_rowsRead (hpre : pre ⊆ registry) (ha : a ∈ registry)
    (h : r ∈ rowsRead env input subject s pre a) :
    r ∈ (progressBefore env input subject s pre).store.rows.rows ∧ r.category = a.category ∧
      r.live = true ∧ s.ofSubject input.tenantId subject r = true := by
  obtain ⟨hmem, htenant, hbelongs⟩ := mem_erasureRows h
  obtain ⟨hcategory, hlive, hsubject⟩ := belongsTo_spec ha hbelongs
  rw [before_users hpre] at hsubject
  exact ⟨hmem, hcategory, hlive, Store.ofSubject_iff.mpr ⟨htenant, hsubject⟩⟩

theorem rowsRead_origin (hpre : pre ⊆ registry)
    (ha : a ∈ registry) (h : r ∈ rowsRead env input subject s pre a) :
    ∃ r₀ ∈ s.rows.rows, r₀.bare = r.bare ∧ key r₀ = key r ∧ r₀.category = a.category ∧
      r₀.live = true ∧ s.ofSubject input.tenantId subject r₀ = true := by
  obtain ⟨hmem, hcategory, hlive, hsubject⟩ := mem_rowsRead hpre ha h
  obtain ⟨r₀, hr₀, hbare⟩ := before_onlyEnds hpre r hmem hlive
  refine ⟨r₀, hr₀, hbare, ?_, ?_, ?_, ?_⟩
  · rw [← Row.key_bare, hbare, Row.key_bare]
  · rw [Row.category, ← Row.resourceType_bare, hbare, Row.resourceType_bare]
    exact hcategory
  · rw [← Row.live_bare, hbare, Row.live_bare, hlive]
  · rw [← Store.ofSubject_bare, hbare, Store.ofSubject_bare, hsubject]

theorem other_round_scrubs {b : Adapter} (hb : b ∈ registry) (hne : b.category ≠ a.category)
    {reached : Row → Prop} {p : Progress} (hcategory : ∀ r, r.category ≠ a.category → reached r)
    (hvisit : a.category = .visitorRecords → ∀ r ∈ p.store.rows.rows, r.tenantId = input.tenantId →
      r.visitorOf = some subject → reached r) :
    Scrubs reached p.store (eraseCategory env input subject p b).store := by
  rcases eraseCategory_cases env input subject p b with hsame | herase
  · rw [hsame]
    exact Scrubs.refl reached p.store
  · rw [herase]
    refine (erase_scrubs hb env _ _ (erasureRefs_category hb) erasureRefs_tenant _).mono ?_
    rintro r hr ⟨ref, href, hreach⟩
    obtain ⟨q, hq, hqtenant, hqbelongs, rfl⟩ := mem_erasureRefs href
    have hspec := belongsTo_spec hb hqbelongs
    rcases hreach with hkey | ⟨htype, htenant, hvisitor⟩
    · obtain rfl : r = q := p.store.rows.eq_of_key_eq hr hq hkey
      apply hcategory
      rw [hspec.1]
      exact hne
    · by_cases hvisits : a.category = .visitorRecords
      · refine hvisit hvisits r hr (htenant.trans hqtenant) (hvisitor.trans (congrArg some ?_))
        have hmem := hspec.2.2
        cases q with
        | person x => exact (List.mem_singleton.mp hmem).symm
        | visitor | auditEvent | notification | webhookEvent => cases htype
      · apply hcategory
        rw [Row.category, Row.resourceType_of_visitorOf hvisitor]
        exact fun h => hvisits h.symm

theorem kept_before (hsplit : registry = pre ++ a :: post)
    (hr : r ∈ s.rows.rows) (hcategory : r.category = a.category) :
    r ∈ (progressBefore env input subject s pre).store.rows.rows := by
  have hscrubs : Scrubs (fun r => r.category ≠ a.category) s
      (progressBefore env input subject s pre).store := by
    refine foldl_eraseCategory_scrubs pre ?_ _ (Scrubs.refl _ s)
    intro b hb p _
    refine other_round_scrubs ((split_sub hsplit).1 hb) ((split_ne hsplit).1 b hb)
      (fun _ h => h) ?_
    intro hvisits
    obtain rfl : a = visitorRecordsAdapter :=
      adapter_eq_of_category (split_sub hsplit).2.1 (by simp [registry]) hvisits
    rw [split_visitors hsplit] at hb
    cases hb
  exact hscrubs.kept r hr fun h => h hcategory

theorem liveAuditEvent_live {tenantId : Uuid}
    (h : liveAuditEvent s tenantId subject r = true) : r.live = true := by
  simp only [liveAuditEvent, Bool.and_eq_true] at h
  exact h.1.1

theorem liveAuditEvent_bare (tenantId subject : Uuid) (r : Row) :
    liveAuditEvent s tenantId subject r.bare = liveAuditEvent s tenantId subject r := by
  simp [liveAuditEvent, Store.ofSubject_bare, Row.category]

theorem select_length_le (hpre : pre ⊆ registry) {order : RowOrder} {p : Row → Bool}
    (hp : ∀ r, p r = true → liveAuditEvent s input.tenantId subject r = true) :
    ((progressBefore env input subject s pre).store.select order p).length ≤
      s.rows.rows.countP (liveAuditEvent s input.tenantId subject) := by
  unfold Store.select
  rw [(order.arrange_perm _).length_eq, ← List.countP_eq_length_filter]
  refine Nat.le_trans (List.countP_mono_left fun r _ h => hp r h) ?_
  exact (before_onlyEnds hpre).countP_le (liveAuditEvent_bare input.tenantId subject)
    (fun _ => liveAuditEvent_live)

/-- A round reads every live row of the person in its category, unless there are more than its
limit. -/
theorem mem_rowsRead_of_few (hsplit : registry = pre ++ a :: post) (hr : r ∈ s.rows.rows)
    (hcategory : r.category = a.category) (hlive : r.live = true)
    (hsubject : s.ofSubject input.tenantId subject r = true)
    (hfew : a.category = .auditEvents →
      s.rows.rows.countP (liveAuditEvent s input.tenantId subject) ≤ scanLimit) :
    r ∈ rowsRead env input subject s pre a := by
  obtain ⟨hpre, ha, _⟩ := split_sub hsplit
  obtain ⟨htenant, hperson⟩ := Store.ofSubject_iff.mp hsubject
  obtain ⟨a', ha', hcategory', hbelongs, hlimit⟩ := exists_adapter hlive hperson
  obtain rfl : a' = a := adapter_eq_of_category ha' ha (hcategory'.trans hcategory)
  have hsel : r ∈ (progressBefore env input subject s pre).store.select
      (input.order a'.category) fun r => r.tenantId == input.tenantId &&
        a'.belongsTo (progressBefore env input subject s pre).store.users subject r := by
    refine Store.mem_select.mpr ⟨kept_before hsplit hr hcategory, ?_⟩
    rw [before_users hpre, htenant, beq_self_eq_true, Bool.true_and, hbelongs]
  unfold rowsRead Adapter.erasureRows
  rcases hlimit with hnone | ⟨haudit, hsome⟩
  · rw [hnone]
    exact hsel
  · rw [hsome]
    dsimp only
    rw [List.take_of_length_le]
    · exact hsel
    · refine Nat.le_trans (select_length_le hpre ?_) (hfew haudit)
      intro x hx
      simp only [Bool.and_eq_true, beq_iff_eq] at hx
      obtain ⟨hxcategory, hxlive, hxperson⟩ := belongsTo_spec ha hx.2
      rw [before_users hpre] at hxperson
      simp [liveAuditEvent, hxlive, hxcategory, haudit, Store.ofSubject_iff.mpr ⟨hx.1, hxperson⟩]

theorem kept_after (hsplit : registry = pre ++ a :: post)
    (hr : r ∈ s.rows.rows) (hcategory : r.category = a.category)
    (hunread : key r ∉ (rowsRead env input subject s pre a).map key) :
    r ∈ (eraseAll env input subject s).store.rows.rows := by
  obtain ⟨hpre, ha, hpost⟩ := split_sub hsplit
  let reached : Row → Prop := fun x =>
    x.category ≠ a.category ∨ key x ∈ (rowsRead env input subject s pre a).map key
  have hother : ∀ b ∈ registry, b.category ≠ a.category → ∀ p : Progress,
      Scrubs reached s p.store →
      Scrubs reached p.store (eraseCategory env input subject p b).store := by
    intro b hb hne p hp
    refine other_round_scrubs hb hne (fun _ => .inl) ?_
    intro hvisits x hx hxtenant hvisitor
    have hxlive := Row.live_of_visitorOf hvisitor
    obtain ⟨r₀, hr₀, hbare⟩ := hp.older x hx hxlive
    refine .inr (List.mem_map.mpr ⟨r₀, mem_rowsRead_of_few hsplit hr₀ ?_ ?_ ?_ ?_, ?_⟩)
    · rw [Row.category, ← Row.resourceType_bare, hbare, Row.resourceType_bare,
        Row.resourceType_of_visitorOf hvisitor, hvisits]
      rfl
    · rw [← Row.live_bare, hbare, Row.live_bare, hxlive]
    · rw [← Store.ofSubject_bare, hbare, Store.ofSubject_bare]
      exact Store.ofSubject_iff.mpr ⟨hxtenant, Row.visitorOf_mem_persons hvisitor⟩
    · rw [hvisits]
      intro h
      cases h
    · rw [← Row.key_bare, hbare, Row.key_bare]
  have hbefore : Scrubs reached s (progressBefore env input subject s pre).store :=
    foldl_eraseCategory_scrubs pre
      (fun b hb => hother b (hpre hb) ((split_ne hsplit).1 b hb)) _ (Scrubs.refl reached s)
  have hround : Scrubs reached (progressBefore env input subject s pre).store
      (eraseCategory env input subject (progressBefore env input subject s pre) a).store := by
    rcases eraseCategory_cases env input subject (progressBefore env input subject s pre) a with
      hsame | herase
    · rw [hsame]
      exact Scrubs.refl reached _
    · rw [herase]
      refine (erase_scrubs ha env _ _ (erasureRefs_category ha) erasureRefs_tenant _).mono ?_
      rintro x hx ⟨ref, href, hreach⟩
      obtain ⟨q, hq, rfl⟩ := List.mem_map.mp href
      rcases hreach with hkey | ⟨htype, _, hvisitor⟩
      · exact .inr (List.mem_map.mpr ⟨q, hq, hkey.symm⟩)
      · left
        rw [← (belongsTo_spec ha (mem_erasureRows hq).2.2).1, Row.category, Row.category,
          Row.resourceType_of_visitorOf hvisitor, show q.resourceType = .persons from htype]
        decide
  have hall : Scrubs reached s (eraseAll env input subject s).store := by
    rw [eraseAll_split hsplit]
    exact foldl_eraseCategory_scrubs post
      (fun b hb => hother b (hpost hb) ((split_ne hsplit).2 b hb)) _ (hbefore.trans hround)
  refine hall.kept r hr ?_
  rintro (hne | hmem)
  · exact hne hcategory
  · exact hunread hmem

theorem ended_after (hsplit : registry = pre ++ a :: post)
    (hok : (eraseAll env input subject s).anyFailed = false)
    (hmode : erasureReaches input.hardDelete a.category = true)
    (hr : r ∈ rowsRead env input subject s pre a) :
    ∀ r' ∈ (eraseAll env input subject s).store.rows.rows, r'.IsAt (key r) input.tenantId →
      r'.live = false := by
  obtain ⟨_, ha, hpost⟩ := split_sub hsplit
  rw [eraseAll_split hsplit] at hok ⊢
  refine (foldl_onlyEnds hpost _).dead (Row.isAt_bare (key r) input.tenantId) ?_
  rw [(eraseCategory_ok ha (foldl_anyFailed hok)).1]
  exact erase_ends ha env hmode (erasureRefs_category ha) erasureRefs_tenant input.now
    (List.mem_map.mpr ⟨r, hr, rfl⟩) _

theorem breakdown_after (hsplit : registry = pre ++ a :: post)
    (hok : (eraseAll env input subject s).anyFailed = false) :
    ∃ c, (eraseAll env input subject s).breakdown a.category = some c ∧
      c.total = (rowsRead env input subject s pre a).length := by
  obtain ⟨_, ha, _⟩ := split_sub hsplit
  rw [eraseAll_split hsplit] at hok ⊢
  rw [foldl_breakdown (split_ne hsplit).2]
  obtain ⟨c, hc, htotal⟩ := (eraseCategory_ok ha (foldl_anyFailed hok)).2
  refine ⟨c, hc, htotal.trans ?_⟩
  exact List.length_map _

theorem rowsRead_nodup (pre : List Adapter) (a : Adapter) :
    ((rowsRead env input subject s pre a).map key).Nodup := by
  have hsel : ∀ (t : Store) (order : RowOrder) (p : Row → Bool), ((t.select order p).map key).Nodup := by
    intro t order p
    exact ((order.arrange_perm _).map key).nodup_iff.mpr (OnlyEnds.keys_nodup t.rows p)
  unfold rowsRead Adapter.erasureRows
  split
  · exact (hsel _ _ _).sublist ((List.take_sublist _ _).map key)
  · exact hsel _ _ _

theorem endedRows_eq {s' : Store} {category : DataCategory} {keys : List (ResourceType × Uuid)}
    (hnodup : keys.Nodup)
    (hkeys : ∀ k, k ∈ keys ↔ ∃ r ∈ s.rows.rows, key r = k ∧ r.category = category ∧
      r.live = true ∧ ∀ r' ∈ s'.rows.rows, key r' = k → r'.live = false) :
    endedRows s s' category = keys.length := by
  unfold endedRows
  rw [List.countP_eq_length_filter, ← List.length_map (f := key)]
  refine ((List.perm_ext_iff_of_nodup (OnlyEnds.keys_nodup s.rows _) hnodup).mpr ?_).length_eq
  intro k
  rw [hkeys, List.mem_map]
  refine exists_congr fun r => ?_
  rw [List.mem_filter]
  simp only [Bool.and_eq_true, beq_iff_eq, Bool.not_eq_true', List.any_eq_false, not_and,
    Bool.not_eq_true]
  constructor
  · rintro ⟨⟨hr, ⟨hcategory, hlive⟩, hdead⟩, rfl⟩
    exact ⟨hr, rfl, hcategory, hlive, hdead⟩
  · rintro ⟨hr, rfl, hcategory, hlive, hdead⟩
    exact ⟨⟨hr, ⟨hcategory, hlive⟩, hdead⟩, rfl⟩

theorem endedRows_after (hsplit : registry = pre ++ a :: post)
    (hok : (eraseAll env input subject s).anyFailed = false)
    (hmode : ∀ r ∈ rowsRead env input subject s pre a,
      erasureReaches input.hardDelete a.category = true) :
    endedRows s (eraseAll env input subject s).store a.category =
      (rowsRead env input subject s pre a).length := by
  obtain ⟨hpre, ha, _⟩ := split_sub hsplit
  rw [← List.length_map (f := key)]
  refine endedRows_eq (rowsRead_nodup pre a) ?_
  intro k
  constructor
  · intro hk
    obtain ⟨r, hr, rfl⟩ := List.mem_map.mp hk
    obtain ⟨r₀, hr₀, hbare, hkey, hcategory, hlive, hsubject⟩ := rowsRead_origin hpre ha hr
    refine ⟨r₀, hr₀, hkey, hcategory, hlive, ?_⟩
    intro r' hr' hkey'
    apply Bool.eq_false_iff.mpr
    intro hlive'
    -- The row at the key is still the one that was read, so it lies in the tenant.
    obtain ⟨r₁, hr₁, hbare₁⟩ := foldl_onlyEnds (List.Subset.refl registry)
      ⟨s, fun _ => none, 0, false⟩ r' hr' hlive'
    have hkey₁ : key r₁ = key r₀ := by
      rw [← Row.key_bare, hbare₁, Row.key_bare, hkey', hkey]
    obtain rfl : r₁ = r₀ := s.rows.eq_of_key_eq hr₁ hr₀ hkey₁
    have htenant : r'.tenantId = input.tenantId := by
      rw [← Row.tenantId_bare, ← hbare₁, Row.tenantId_bare]
      exact (Store.ofSubject_iff.mp hsubject).1
    rw [ended_after hsplit hok (hmode r hr) hr r' hr' ⟨hkey', htenant⟩] at hlive'
    cases hlive'
  · rintro ⟨r, hr, rfl, hcategory, hlive, hdead⟩
    by_contra hunread
    have hkept := kept_after hsplit hr hcategory hunread
    rw [hdead r hkept rfl] at hlive
    cases hlive

end Round

end Prequest.Privacy
