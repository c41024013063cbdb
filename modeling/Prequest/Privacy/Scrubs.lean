import Prequest.Privacy.Adapters
import Mathlib.Data.List.Perm.Subperm

/-!
# What an adapter does to the rows

Anonymizing and deleting change the rows that the references name, and the visits of
a person who is anonymized; every other row is as it was.

* `retain_ends`: the rows that a retention run names are gone or anonymized.
-/

namespace Prequest.Privacy

open Prequest.Lib Prequest.Visitors

/-- The row is named by a reference, or is the visit of a person who is. -/
def Row.ReachedBy (refs : List EntityRef) (r : Row) : Prop :=
  ∃ ref ∈ refs, key r = ref.key ∨
    ref.resourceType = .persons ∧ r.tenantId = ref.tenantId ∧ r.visitorOf = some ref.resourceId

variable {refs : List EntityRef} {r : Row}

theorem Row.ReachedBy.mono {refs' : List EntityRef} (h : r.ReachedBy refs)
    (hsub : refs ⊆ refs') : r.ReachedBy refs' := by
  obtain ⟨ref, href, hr⟩ := h
  exact ⟨ref, hsub href, hr⟩

/-- What is live afterwards was live before, up to the columns that follow a person. -/
def OnlyEnds (t t' : Table Row) : Prop :=
  ∀ r' ∈ t'.rows, r'.live = true → ∃ r ∈ t.rows, r.bare = r'.bare

namespace OnlyEnds

variable {t t' t'' : Table Row}

theorem refl (t : Table Row) : OnlyEnds t t := fun r hr _ => ⟨r, hr, rfl⟩

theorem trans (h : OnlyEnds t t') (h' : OnlyEnds t' t'') : OnlyEnds t t'' := by
  intro r hr hlive
  obtain ⟨r₁, hr₁, hbare₁⟩ := h' r hr hlive
  have hlive₁ : r₁.live = true := by rw [← Row.live_bare, hbare₁, Row.live_bare, hlive]
  obtain ⟨r₂, hr₂, hbare₂⟩ := h r₁ hr₁ hlive₁
  exact ⟨r₂, hr₂, hbare₂.trans hbare₁⟩

theorem dead (h : OnlyEnds t t') {q : Row → Prop} (hq : ∀ r, q r.bare ↔ q r)
    (hdead : ∀ r ∈ t.rows, q r → r.live = false) : ∀ r ∈ t'.rows, q r → r.live = false := by
  intro r' hr' hqr'
  cases hlive : r'.live with
  | false => rfl
  | true =>
    obtain ⟨r, hr, hbare⟩ := h r' hr' hlive
    have hqr : q r := by rwa [← hq, hbare, hq]
    have hdead := hdead r hr hqr
    rw [← Row.live_bare, hbare, Row.live_bare, hlive] at hdead
    cases hdead

section Count

variable {q : Row → Bool} (hq : ∀ r, q r.bare = q r) (hlive : ∀ r, q r = true → r.live = true)

theorem keys_nodup (t : Table Row) (q : Row → Bool) : ((t.rows.filter q).map key).Nodup :=
  t.nodup.sublist (List.filter_sublist.map key)

include hq hlive

theorem keys_subset (h : OnlyEnds t t') :
    (t'.rows.filter q).map key ⊆ (t.rows.filter q).map key := by
  intro k hk
  obtain ⟨r', hr', rfl⟩ := List.mem_map.mp hk
  obtain ⟨hmem, hqr'⟩ := List.mem_filter.mp hr'
  obtain ⟨r, hr, hbare⟩ := h r' hmem (hlive r' hqr')
  refine List.mem_map.mpr ⟨r, List.mem_filter.mpr ⟨hr, ?_⟩, ?_⟩
  · rw [← hq, hbare, hq, hqr']
  · rw [← Row.key_bare, hbare, Row.key_bare]

theorem countP_le (h : OnlyEnds t t') : t'.rows.countP q ≤ t.rows.countP q := by
  have hle := (List.subperm_of_subset (keys_nodup t' q) (keys_subset hq hlive h)).length_le
  rwa [List.length_map, List.length_map, ← List.countP_eq_length_filter,
    ← List.countP_eq_length_filter] at hle

theorem countP_lt (h : OnlyEnds t t') {r : Row} (hr : r ∈ t.rows) (hqr : q r = true)
    (hends : ∀ r' ∈ t'.rows, key r' = key r → q r' = false) :
    t'.rows.countP q < t.rows.countP q := by
  have hmem : key r ∈ (t.rows.filter q).map key :=
    List.mem_map.mpr ⟨r, List.mem_filter.mpr ⟨hr, hqr⟩, rfl⟩
  have hsub : (t'.rows.filter q).map key ⊆ ((t.rows.filter q).map key).erase (key r) := by
    intro k hk
    refine (List.mem_erase_of_ne ?_).mpr (keys_subset hq hlive h hk)
    rintro rfl
    obtain ⟨r', hr', hkey⟩ := List.mem_map.mp hk
    obtain ⟨hmem', hqr'⟩ := List.mem_filter.mp hr'
    rw [hends r' hmem' hkey] at hqr'
    cases hqr'
  have hle := (List.subperm_of_subset (keys_nodup t' q) hsub).length_le
  have hpos := List.length_pos_of_mem hmem
  rw [List.length_erase_of_mem hmem] at hle
  simp only [List.length_map, ← List.countP_eq_length_filter] at hle hpos
  omega

end Count

end OnlyEnds

/-- Rows outside of `reached` stay, and rows end at most. -/
structure Scrubs (reached : Row → Prop) (s s' : Store) : Prop where
  users : s'.users = s.users
  legalHolds : s'.legalHolds = s.legalHolds
  retentionDays : s'.retentionDays = s.retentionDays
  kept : ∀ r ∈ s.rows.rows, ¬reached r → r ∈ s'.rows.rows
  older : OnlyEnds s.rows s'.rows

namespace Scrubs

variable {reached reached' : Row → Prop} {s s' s'' : Store}

theorem refl (reached : Row → Prop) (s : Store) : Scrubs reached s s :=
  ⟨rfl, rfl, rfl, fun _ hr _ => hr, OnlyEnds.refl s.rows⟩

theorem trans (h : Scrubs reached s s') (h' : Scrubs reached s' s'') : Scrubs reached s s'' where
  users := h'.users.trans h.users
  legalHolds := h'.legalHolds.trans h.legalHolds
  retentionDays := h'.retentionDays.trans h.retentionDays
  kept r hr hfree := h'.kept r (h.kept r hr hfree) hfree
  older := h.older.trans h'.older

theorem mono (h : Scrubs reached s s') (hsub : ∀ r ∈ s.rows.rows, reached r → reached' r) :
    Scrubs reached' s s' :=
  { h with kept := fun r hr hfree => h.kept r hr fun hr' => hfree (hsub r hr hr') }

theorem foldl {β : Type*} {f : Store → β → Store} (bs : List β)
    (h : ∀ b ∈ bs, ∀ s, Scrubs reached s (f s b)) (s : Store) :
    Scrubs reached s (bs.foldl f s) := by
  induction bs generalizing s with
  | nil => exact refl reached s
  | cons b bs ih =>
    refine (h b List.mem_cons_self s).trans ?_
    exact ih (fun b hb => h b (List.mem_cons_of_mem _ hb)) (f s b)

theorem foldl_dead {β : Type*} {f : Store → β → Store} {q : Row → Prop} (hq : ∀ r, q r.bare ↔ q r)
    {bs : List β} (h : ∀ b ∈ bs, ∀ s, Scrubs reached s (f s b)) {b : β} (hb : b ∈ bs)
    (hends : ∀ s, ∀ r ∈ (f s b).rows.rows, q r → r.live = false) (s : Store) :
    ∀ r ∈ (bs.foldl f s).rows.rows, q r → r.live = false := by
  obtain ⟨pre, post, rfl⟩ := List.append_of_mem hb
  rw [List.foldl_append, List.foldl_cons]
  have hpost : ∀ c ∈ post, ∀ s, Scrubs reached s (f s c) := fun c hc =>
    h c (List.mem_append_right _ (List.mem_cons_of_mem _ hc))
  exact (foldl post hpost _).older.dead hq (hends _)

end Scrubs

/-! ## Statements -/

theorem snapshotTx_scrubs (category : DataCategory) (tenantId : Uuid) (originals : List Row)
    (reason : Reason) (reached : Row → Prop) (s : Store) :
    Scrubs reached s (snapshotTx category tenantId originals reason s) := by
  cases reason <;> exact ⟨rfl, rfl, rfl, fun _ hr _ => hr, fun r hr _ => ⟨r, hr, rfl⟩⟩

theorem snapshotTx_rows (category : DataCategory) (tenantId : Uuid) (originals : List Row)
    (reason : Reason) (s : Store) : (snapshotTx category tenantId originals reason s).rows = s.rows := by
  cases reason <;> rfl

variable {s : Store} {reached : Row → Prop}

theorem update_scrubs {p : Row → Bool} {f : Table.Assignment Row}
    (hreached : ∀ r, p r = true → reached r)
    (hf : ∀ r ∈ s.rows.rows, p r = true → (f.apply r).live = true → (f.apply r).bare = r.bare) :
    Scrubs reached s { s with rows := s.rows.update p f } := by
  refine ⟨rfl, rfl, rfl, ?_, ?_⟩
  · intro r hr hfree
    refine Table.mem_update_iff.mpr ⟨r, hr, .inr ⟨?_, rfl⟩⟩
    intro hp
    exact hfree (hreached r hp)
  · intro r' hr' hlive
    obtain ⟨r, hr, ⟨hp, rfl⟩ | ⟨_, rfl⟩⟩ := Table.mem_update_iff.mp hr'
    · exact ⟨r, hr, (hf r hr hp hlive).symm⟩
    · exact ⟨r', hr, rfl⟩

theorem delete_scrubs {p : Row → Bool} (hreached : ∀ r, p r = true → reached r) :
    Scrubs reached s { s with rows := s.rows.delete p } := by
  refine ⟨rfl, rfl, rfl, ?_, ?_⟩
  · intro r hr hfree
    refine Table.mem_delete.mpr ⟨hr, ?_⟩
    apply Bool.eq_false_iff.mpr
    intro hp
    exact hfree (hreached r hp)
  · intro r hr _
    exact ⟨r, (Table.mem_delete.mp hr).1, rfl⟩

theorem bare_withNamesOf (p : PersonRow) (r : Row) : (r.withNamesOf p).bare = r.bare := by
  cases r <;> rfl

variable {env : Env} {reason : Reason} {now : Int}

theorem live_anonymize
    (h : r.resourceType = .persons ∨ r.resourceType = .visitors ∨ r.resourceType = .auditEvents) :
    (r.anonymize env reason now).live = false := by
  cases r with
  | person p => rfl
  | visitor v => rfl
  | auditEvent e =>
    show (!e.anonymize.isAnonymized) = false
    simp [AuditEventRow.isAnonymized, AuditEventRow.anonymize]
  | notification n => simp [Row.resourceType] at h
  | webhookEvent w => simp [Row.resourceType] at h

variable {table : ResourceType} {tenantId : Uuid}

theorem reachedBy_of_among (htable : ∀ ref ∈ refs, ref.resourceType = table)
    (h : r.among table tenantId (refs.map (·.resourceId)) = true) : r.ReachedBy refs := by
  simp only [Row.among, Bool.and_eq_true, beq_iff_eq, List.contains_iff_mem, List.mem_map] at h
  obtain ⟨⟨htype, _⟩, ref, href, hid⟩ := h
  refine ⟨ref, href, .inl ?_⟩
  rw [Row.key_eq, EntityRef.key, htype, htable ref href, hid]

variable {ref : EntityRef}

theorem among_of_key
    (href : ref ∈ refs) (hkey : key r = ref.key) (htable : ref.resourceType = table)
    (htenant : r.tenantId = tenantId) :
    r.among table tenantId (refs.map (·.resourceId)) = true := by
  rw [Row.key_eq, EntityRef.key, Prod.mk.injEq] at hkey
  simp only [Row.among, Bool.and_eq_true, beq_iff_eq, List.contains_iff_mem, List.mem_map]
  exact ⟨⟨hkey.1.trans htable, htenant⟩, ref, href, hkey.2.symm⟩

/-! ## Adapters -/

theorem anonymizeAmong_scrubs (htable : ∀ ref ∈ refs, ref.resourceType = table)
    (hmarked : table = .persons ∨ table = .visitors ∨ table = .auditEvents) (s : Store) :
    Scrubs (Row.ReachedBy refs) s
      { s with
        rows := s.rows.update
          (fun r => r.among table tenantId (refs.map (·.resourceId)) && r.live)
          (anonymizeRow env reason now) } := by
  apply update_scrubs
  · intro r hp
    exact reachedBy_of_among htable (Bool.and_eq_true_iff.mp hp).1
  · intro r _ hp hlive
    have hamong := (Bool.and_eq_true_iff.mp hp).1
    simp only [Row.among, Bool.and_eq_true, beq_iff_eq] at hamong
    rw [show (anonymizeRow env reason now).apply r = r.anonymize env reason now from rfl,
      live_anonymize (by rw [hamong.1.1]; exact hmarked)] at hlive
    cases hlive

theorem anonymizeVisitors_scrubs (env : Env) (reason : Reason) (now : Int)
    (htable : ∀ ref ∈ refs, ref.resourceType = .visitors) (s : Store) :
    Scrubs (Row.ReachedBy refs) s (anonymizeVisitors env refs reason now s) := by
  cases refs with
  | nil => exact Scrubs.refl _ s
  | cons ref refs =>
    exact (snapshotTx_scrubs .visitorRecords ref.tenantId _ reason _ s).trans
      (anonymizeAmong_scrubs htable (.inr (.inl rfl)) _)

theorem anonymizeAuditEvents_scrubs (env : Env) (reason : Reason) (now : Int)
    (htable : ∀ ref ∈ refs, ref.resourceType = .auditEvents) (s : Store) :
    Scrubs (Row.ReachedBy refs) s (anonymizeAuditEvents env refs reason now s) := by
  cases refs with
  | nil => exact Scrubs.refl _ s
  | cons ref refs =>
    exact (snapshotTx_scrubs .auditEvents ref.tenantId _ reason _ s).trans
      (anonymizeAmong_scrubs htable (.inr (.inr rfl)) _)

theorem syncPersonsPiiToVisitors_scrubs {old new : PersonRow}
    (hreached : ∀ r, r.tenantId = new.tenantId → r.visitorOf = some new.id → reached r) :
    Scrubs reached s { s with rows := syncPersonsPiiToVisitors old new s.rows } := by
  unfold syncPersonsPiiToVisitors
  split
  · exact Scrubs.refl _ s
  · apply update_scrubs
    · intro r hp
      simp only [Bool.and_eq_true, beq_iff_eq] at hp
      exact hreached r hp.1 hp.2
    · intro r _ _ _
      exact bare_withNamesOf new r

theorem anonymizePerson_scrubs (env : Env) (tenantId : Uuid) (reason : Reason) (now : Int)
    (htable : ∀ ref ∈ refs, ref.resourceType = .persons)
    (htenant : ∀ ref ∈ refs, ref.tenantId = tenantId) {id : Uuid}
    (hid : id ∈ refs.map (·.resourceId)) (s : Store) :
    Scrubs (Row.ReachedBy refs) s (anonymizePerson env tenantId reason now s id) := by
  obtain ⟨ref, href, rfl⟩ := List.mem_map.mp hid
  unfold anonymizePerson
  split
  · rename_i p hget
    have hpid : p.id = ref.resourceId := by
      have := (Table.get?_eq_some.mp hget).2
      rw [Row.key_eq, Prod.mk.injEq] at this
      exact this.2
    split
    · rename_i hopen
      refine (show Scrubs _ s { s with rows := s.rows.update _ _ } from update_scrubs ?_ ?_).trans
        (syncPersonsPiiToVisitors_scrubs ?_)
      · intro r hp
        refine ⟨ref, href, .inl ?_⟩
        rw [EntityRef.key, htable ref href]
        simpa using hp
      · intro r _ hp hlive
        have htype : r.resourceType = .persons := by
          have hkey : key r = (ResourceType.persons, ref.resourceId) := by simpa using hp
          rw [Row.key_eq, Prod.mk.injEq] at hkey
          exact hkey.1
        rw [show (anonymizeRow env reason now).apply r = r.anonymize env reason now from rfl,
          live_anonymize (.inl htype)] at hlive
        cases hlive
      · intro r hrtenant hvisit
        refine ⟨ref, href, .inr ⟨htable ref href, ?_, ?_⟩⟩
        · rw [hrtenant, htenant ref href]
          exact hopen.1
        · rw [hvisit, ← hpid]
          rfl
    · exact Scrubs.refl _ s
  · exact Scrubs.refl _ s

theorem anonymizePersons_scrubs (env : Env) (reason : Reason) (now : Int)
    (htable : ∀ ref ∈ refs, ref.resourceType = .persons)
    (htenant : ∀ ref ∈ refs, ref.tenantId = tenantId) (s : Store) :
    Scrubs (Row.ReachedBy refs) s (anonymizePersons env refs reason now s) := by
  cases refs with
  | nil => exact Scrubs.refl _ s
  | cons ref refs =>
    refine (snapshotTx_scrubs .personRefInPastRecords ref.tenantId _ reason _ s).trans
      (Scrubs.foldl _ ?_ _)
    intro id hid s
    refine anonymizePerson_scrubs env ref.tenantId reason now htable ?_ hid s
    intro ref' href'
    rw [htenant ref' href', htenant ref List.mem_cons_self]

theorem hardDeleteRows_scrubs (htable : ∀ ref ∈ refs, ref.resourceType = table) (s : Store) :
    Scrubs (Row.ReachedBy refs) s (hardDeleteRows table refs s) := by
  cases refs with
  | nil => exact Scrubs.refl _ s
  | cons ref refs => exact delete_scrubs fun r hp => reachedBy_of_among htable hp

theorem category_injective : Function.Injective ResourceType.category := by
  intro t t' h
  cases t <;> cases t' <;> first | rfl | cases h

variable {a : Adapter}

theorem expired_spec (ha : a ∈ registry) {days : Int}
    (h : a.expired days now r = true) : r.category = a.category ∧ r.live = true := by
  obtain rfl | rfl | rfl | rfl | rfl | ⟨c, b, rfl, hc⟩ := registry_cases ha
  · cases r with
    | visitor v =>
      simp only [visitorRecordsAdapter, Bool.and_eq_true] at h
      exact ⟨rfl, h.1.1⟩
    | person | auditEvent | notification | webhookEvent => cases h
  · cases r with
    | person p =>
      simp only [personsAdapter, Bool.and_eq_true] at h
      exact ⟨rfl, h.2⟩
    | visitor | auditEvent | notification | webhookEvent => cases h
  · cases r with
    | auditEvent e =>
      simp only [auditEventsAdapter, Bool.and_eq_true] at h
      exact ⟨rfl, h.2⟩
    | person | visitor | notification | webhookEvent => cases h
  · cases r with
    | webhookEvent w => exact ⟨rfl, rfl⟩
    | person | visitor | auditEvent | notification => cases h
  · cases r with
    | notification n => exact ⟨rfl, rfl⟩
    | person | visitor | auditEvent | webhookEvent => cases h
  · cases h

theorem belongsTo_spec (ha : a ∈ registry) {users : List UserRow} {personId : Uuid}
    (h : a.belongsTo users personId r = true) :
    r.category = a.category ∧ r.live = true ∧ personId ∈ r.persons users := by
  obtain rfl | rfl | rfl | rfl | rfl | ⟨c, b, rfl, hc⟩ := registry_cases ha
  · cases r with
    | visitor v =>
      simp only [visitorRecordsAdapter, Bool.and_eq_true, Bool.or_eq_true, beq_iff_eq] at h
      refine ⟨rfl, h.2, ?_⟩
      rcases h.1 with hvisitor | rfl
      · exact Row.visitorOf_mem_persons hvisitor
      · exact List.mem_append_right _ List.mem_cons_self
    | person | auditEvent | notification | webhookEvent => cases h
  · cases r with
    | person p =>
      simp only [personsAdapter, Bool.and_eq_true, beq_iff_eq] at h
      exact ⟨rfl, h.2, List.mem_singleton.mpr h.1.symm⟩
    | visitor | auditEvent | notification | webhookEvent => cases h
  · cases r with
    | auditEvent e =>
      simp only [auditEventsAdapter, Bool.and_eq_true, beq_iff_eq] at h
      exact ⟨rfl, h.2, Option.mem_toList.mpr h.1⟩
    | person | visitor | notification | webhookEvent => cases h
  · cases h
  · cases r with
    | notification n =>
      have hrecipient : n.recipientPersonId = some personId := beq_iff_eq.mp h
      exact ⟨rfl, rfl, Option.mem_toList.mpr hrecipient⟩
    | person | visitor | auditEvent | webhookEvent => cases h
  · cases h

theorem table_of_category (hrefs : ∀ ref ∈ refs, ref.resourceType.category = a.category)
    (ha : a.category = table.category) : ∀ ref ∈ refs, ref.resourceType = table :=
  fun ref href => category_injective ((hrefs ref href).trans ha)

section Methods

variable {a : Adapter} (ha : a ∈ registry) (env : Env) {refs : List EntityRef}
  (hrefs : ∀ ref ∈ refs, ref.resourceType.category = a.category) (now : Int)

include ha hrefs

theorem anonymize_scrubs {tenantId : Uuid} (htenant : ∀ ref ∈ refs, ref.tenantId = tenantId)
    (reason : Reason) (s : Store) :
    Scrubs (Row.ReachedBy refs) s (a.anonymize env refs reason now s) := by
  obtain rfl | rfl | rfl | rfl | rfl | ⟨c, b, rfl, hc⟩ := registry_cases ha
  · exact anonymizeVisitors_scrubs env reason now (table_of_category hrefs rfl) s
  · exact anonymizePersons_scrubs env reason now (table_of_category hrefs rfl) htenant s
  · exact anonymizeAuditEvents_scrubs env reason now (table_of_category hrefs rfl) s
  · exact Scrubs.refl _ s
  · exact Scrubs.refl _ s
  · exact Scrubs.refl _ s

theorem hardDelete_scrubs (s : Store) : Scrubs (Row.ReachedBy refs) s (a.hardDelete refs s) := by
  obtain rfl | rfl | rfl | rfl | rfl | ⟨c, b, rfl, hc⟩ := registry_cases ha
  · exact Scrubs.refl _ s
  · exact Scrubs.refl _ s
  · exact Scrubs.refl _ s
  · exact hardDeleteRows_scrubs (table_of_category hrefs rfl) s
  · exact hardDeleteRows_scrubs (table_of_category hrefs rfl) s
  · exact Scrubs.refl _ s

end Methods

/-! ## Retention -/

/-- What a retention run does with a chunk: categories without a legal basis are deleted. -/
def Adapter.retain (a : Adapter) (env : Env) (now : Int) (s : Store) (refs : List EntityRef) :
    Store :=
  if a.legalBasis = .none then a.hardDelete refs s else a.anonymize env refs .retention now s

theorem retain_scrubs (ha : a ∈ registry) (env : Env)
    (hrefs : ∀ ref ∈ refs, ref.resourceType.category = a.category)
    (htenant : ∀ ref ∈ refs, ref.tenantId = tenantId) (now : Int) (s : Store) :
    Scrubs (Row.ReachedBy refs) s (a.retain env now s refs) := by
  unfold Adapter.retain
  split
  · exact hardDelete_scrubs ha hrefs s
  · exact anonymize_scrubs ha env hrefs now htenant .retention s

def Row.IsAt (k : ResourceType × Uuid) (tenantId : Uuid) (r : Row) : Prop :=
  key r = k ∧ r.tenantId = tenantId

theorem Row.isAt_bare (k : ResourceType × Uuid) (tenantId : Uuid) (r : Row) :
    r.bare.IsAt k tenantId ↔ r.IsAt k tenantId := by
  simp [Row.IsAt]

theorem anonymizeAmong_ends (htable : ∀ ref ∈ refs, ref.resourceType = table)
    (hmarked : table = .persons ∨ table = .visitors ∨ table = .auditEvents)
    (href : ref ∈ refs) (rows : Table Row) :
    ∀ r ∈ (rows.update
        (fun r => r.among table tenantId (refs.map (·.resourceId)) && r.live)
        (anonymizeRow env reason now)).rows, r.IsAt ref.key tenantId → r.live = false := by
  intro r' hr' hat
  obtain ⟨r, _, ⟨hp, rfl⟩ | ⟨hp, rfl⟩⟩ := Table.mem_update_iff.mp hr'
  · have hamong := (Bool.and_eq_true_iff.mp hp).1
    simp only [Row.among, Bool.and_eq_true, beq_iff_eq] at hamong
    exact live_anonymize (by rw [hamong.1.1]; exact hmarked)
  · apply Bool.eq_false_iff.mpr
    intro hlive
    exact hp (Bool.and_eq_true_iff.mpr ⟨among_of_key href hat.1 (htable ref href) hat.2, hlive⟩)

theorem anonymizePerson_ends (env : Env) (tenantId : Uuid) (reason : Reason) (now : Int) (id : Uuid)
    (s : Store) : ∀ r ∈ (anonymizePerson env tenantId reason now s id).rows.rows,
      r.IsAt (.persons, id) tenantId → r.live = false := by
  intro r hr hat
  unfold anonymizePerson at hr
  split at hr
  · rename_i p hget
    split at hr
    · let after : Store :=
        { s with
          rows := s.rows.update (fun r => key r == (.persons, id)) (anonymizeRow env reason now) }
      have hscrubs : Scrubs (fun _ => True) after
          { after with
            rows := syncPersonsPiiToVisitors p (p.anonymize env reason now) after.rows } :=
        syncPersonsPiiToVisitors_scrubs fun _ _ _ => trivial
      refine hscrubs.older.dead (Row.isAt_bare (.persons, id) tenantId) ?_ r hr hat
      intro r' hr' hat'
      obtain ⟨r₀, _, ⟨hp, rfl⟩ | ⟨hp, rfl⟩⟩ := Table.mem_update_iff.mp hr'
      · have hkey : key r₀ = (ResourceType.persons, id) := by simpa using hp
        rw [Row.key_eq, Prod.mk.injEq] at hkey
        exact live_anonymize (.inl hkey.1)
      · exact absurd (by simpa using hat'.1) hp
    · rename_i hskip
      have hrp : r = .person p := by
        have hp := Table.get?_eq_some.mp hget
        exact s.rows.eq_of_key_eq hr hp.1 (hat.1.trans hp.2.symm)
      subst hrp
      cases hanon : p.anonymizedAt with
      | none => exact absurd ⟨hat.2, hanon⟩ hskip
      | some t =>
        show p.anonymizedAt.isNone = false
        rw [hanon]
        rfl
  · rename_i hnot
    have hget := s.rows.get?_of_mem hr
    rw [hat.1] at hget
    cases r with
    | person p => exact absurd hget (hnot p)
    | visitor | auditEvent | notification | webhookEvent => cases hat.1

theorem hardDeleteRows_ends
    (htable : ∀ ref ∈ refs, ref.resourceType = table) (htenant : ∀ ref ∈ refs, ref.tenantId = tenantId)
    (href : ref ∈ refs) (s : Store) :
    ∀ r ∈ (hardDeleteRows table refs s).rows.rows, r.IsAt ref.key tenantId → r.live = false := by
  cases refs with
  | nil => cases href
  | cons first refs =>
    intro r hr hat
    have hp := (Table.mem_delete.mp hr).2
    rw [htenant first List.mem_cons_self, among_of_key href hat.1 (htable ref href) hat.2] at hp
    cases hp

section Ends

variable {a : Adapter} (env : Env) {refs : List EntityRef}
  (hrefs : ∀ ref ∈ refs, ref.resourceType.category = a.category) {tenantId : Uuid}
  (htenant : ∀ ref ∈ refs, ref.tenantId = tenantId) (now : Int) {ref : EntityRef} (href : ref ∈ refs)

include hrefs htenant href

theorem anonymize_ends
    (ha : a = visitorRecordsAdapter ∨ a = personsAdapter ∨ a = auditEventsAdapter)
    (reason : Reason) (s : Store) :
    ∀ r ∈ (a.anonymize env refs reason now s).rows.rows, r.IsAt ref.key tenantId →
      r.live = false := by
  cases refs with
  | nil => cases href
  | cons first refs =>
    rcases ha with rfl | rfl | rfl
    · show ∀ r ∈ ((snapshotTx _ _ _ _ s).rows.update _ _).rows, _
      rw [htenant first List.mem_cons_self]
      exact anonymizeAmong_ends (table_of_category hrefs rfl) (.inr (.inl rfl)) href _
    · show ∀ r ∈ (((first :: refs).map (·.resourceId)).foldl
        (anonymizePerson env first.tenantId reason now) (snapshotTx _ _ _ _ s)).rows.rows, _
      rw [htenant first List.mem_cons_self]
      have htable : ∀ ref ∈ first :: refs, ref.resourceType = .persons :=
        table_of_category hrefs rfl
      rw [show ref.key = (.persons, ref.resourceId) by rw [EntityRef.key, htable ref href]]
      exact Scrubs.foldl_dead (Row.isAt_bare _ _)
        (fun id hid s => anonymizePerson_scrubs env tenantId reason now htable htenant hid s)
        (List.mem_map.mpr ⟨ref, href, rfl⟩)
        (anonymizePerson_ends env tenantId reason now ref.resourceId) _
    · show ∀ r ∈ ((snapshotTx _ _ _ _ s).rows.update _ _).rows, _
      rw [htenant first List.mem_cons_self]
      exact anonymizeAmong_ends (table_of_category hrefs rfl) (.inr (.inr rfl)) href _

omit env now in
theorem hardDelete_ends (ha : a = webhookNotificationsAdapter ∨ a = emailNotificationsAdapter)
    (s : Store) :
    ∀ r ∈ (a.hardDelete refs s).rows.rows, r.IsAt ref.key tenantId → r.live = false := by
  rcases ha with rfl | rfl
  · exact hardDeleteRows_ends (table_of_category hrefs rfl) htenant href s
  · exact hardDeleteRows_ends (table_of_category hrefs rfl) htenant href s

theorem retain_ends (ha : a ∈ registry) (s : Store) :
    ∀ r ∈ (a.retain env now s refs).rows.rows, r.IsAt ref.key tenantId → r.live = false := by
  obtain rfl | rfl | rfl | rfl | rfl | ⟨c, b, rfl, hc⟩ := registry_cases ha
  · exact anonymize_ends env hrefs htenant now href (.inl rfl) .retention s
  · exact anonymize_ends env hrefs htenant now href (.inr (.inl rfl)) .retention s
  · exact anonymize_ends env hrefs htenant now href (.inr (.inr rfl)) .retention s
  · exact hardDelete_ends hrefs htenant href (.inl rfl) s
  · exact hardDelete_ends hrefs htenant href (.inr rfl) s
  · exact absurd (hrefs ref href) (hc _)

end Ends

end Prequest.Privacy
