import Prequest.Privacy.Erasure

/-!
# The rounds of an erasure

What is left of the rows of a person after a round of the loop, and what the rounds
before and after it leave alone.

* `foldl_eraseCategory_rel`: what every erasure keeps, the loop keeps.
-/

namespace Prequest.Privacy

open Prequest.Lib

/-! ## Personal data -/

/-- A column of personal data of the row holds something. -/
def Row.personal (env : Env) : Row → Bool
  | .person p =>
      p.firstName != "Former employee" || p.lastName != env.personPlaceholder p.id ||
        p.email.isSome || p.phone.isSome || p.avatarUrl.isSome
  | .visitor v =>
      v.badgeId.isSome || v.personId.isSome || v.firstName.isSome || v.lastName.isSome ||
        v.email.isSome || v.phone.isSome || v.company.isSome || v.meetingRoomId.isSome ||
        v.notesForVisitor.isSome || v.notesForReception.isSome
  | .auditEvent e =>
      e.ipAddress.isSome ||
        e.details.any fun entry => redactKeys.contains entry.1 && entry.2 != "<redacted>"
  | .notification n => n.recipientPersonId.isSome || n.subject.isSome || n.body.isSome
  | .webhookEvent w => w.payload != ""

theorem redact_clean (entry : String × String) :
    (redactKeys.contains (redact entry).1 && (redact entry).2 != "<redacted>") = false := by
  unfold redact
  split
  · simp
  · rename_i h
    simp only [Bool.not_eq_true] at h
    rw [h, Bool.false_and]

variable {env : Env}

theorem personal_anonymize {reason : Reason} {now : Int} {r : Row}
    (h : r.resourceType = .persons ∨ r.resourceType = .visitors ∨ r.resourceType = .auditEvents) :
    (r.anonymize env reason now).personal env = false := by
  cases r with
  | person p => simp [Row.anonymize, Row.personal, PersonRow.anonymize]
  | visitor v => rfl
  | auditEvent e =>
    unfold Row.anonymize Row.personal
    dsimp only
    rw [Bool.or_eq_false_iff]
    refine ⟨rfl, List.any_eq_false.mpr ?_⟩
    intro entry hentry
    rcases List.mem_cons.mp hentry with rfl | hentry
    · decide
    · obtain ⟨x, _, rfl⟩ := List.mem_map.mp (List.mem_filter.mp hentry).1
      exact Bool.eq_false_iff.mp (redact_clean x)
  | notification n => simp [Row.resourceType] at h
  | webhookEvent w => simp [Row.resourceType] at h

/-- What a step leaves behind was there, is live, or is clean. -/
def Cleans (env : Env) (t t' : Table Row) : Prop :=
  ∀ r ∈ t'.rows, r ∈ t.rows ∨ r.live = true ∨ r.personal env = false

namespace Cleans

variable {env : Env} {t t' t'' : Table Row}

theorem refl (env : Env) (t : Table Row) : Cleans env t t := fun _ hr => .inl hr

theorem trans (h : Cleans env t t') (h' : Cleans env t' t'') : Cleans env t t'' := by
  intro r hr
  rcases h' r hr with hmem | hrest
  · exact h r hmem
  · exact .inr hrest

end Cleans

theorem update_cleans {t : Table Row} {p : Row → Bool} {f : Table.Assignment Row}
    (h : ∀ r, p r = true → (f.apply r).live = true ∨ (f.apply r).personal env = false) :
    Cleans env t (t.update p f) := by
  intro r' hr'
  obtain ⟨r, hr, ⟨hp, rfl⟩ | ⟨_, rfl⟩⟩ := Table.mem_update_iff.mp hr'
  · exact .inr (h r hp)
  · exact .inl hr

theorem anonymizeAmong_cleans {table : ResourceType} {tenantId : Uuid} {reason : Reason}
    {now : Int} {ids : List Uuid}
    (hmarked : table = .persons ∨ table = .visitors ∨ table = .auditEvents) (t : Table Row) :
    Cleans env t (t.update (fun r => r.among table tenantId ids && r.live)
      (anonymizeRow env reason now)) := by
  apply update_cleans
  intro r hp
  have hamong := (Bool.and_eq_true_iff.mp hp).1
  simp only [Row.among, Bool.and_eq_true, beq_iff_eq] at hamong
  exact .inr (personal_anonymize (by rw [hamong.1.1]; exact hmarked))

theorem syncPersonsPiiToVisitors_cleans (env : Env) (old new : PersonRow) (t : Table Row) :
    Cleans env t (syncPersonsPiiToVisitors old new t) := by
  unfold syncPersonsPiiToVisitors
  split
  · exact Cleans.refl env t
  · apply update_cleans
    intro r hp
    simp only [Bool.and_eq_true, beq_iff_eq] at hp
    refine .inl ?_
    show (r.withNamesOf new).live = true
    rw [← Row.live_bare, bare_withNamesOf, Row.live_bare]
    exact Row.live_of_visitorOf hp.2

theorem anonymizePerson_cleans (env : Env) (tenantId : Uuid) (reason : Reason) (now : Int) (id : Uuid)
    (s : Store) : Cleans env s.rows (anonymizePerson env tenantId reason now s id).rows := by
  unfold anonymizePerson
  split
  · split
    · refine Cleans.trans (update_cleans ?_) (syncPersonsPiiToVisitors_cleans env _ _ _)
      intro r hp
      have hkey : key r = (ResourceType.persons, id) := by simpa using hp
      rw [Row.key_eq, Prod.mk.injEq] at hkey
      exact .inr (personal_anonymize (.inl hkey.1))
    · exact Cleans.refl env s.rows
  · exact Cleans.refl env s.rows

variable {a : Adapter}

theorem anonymize_cleans (ha : a ∈ registry) (env : Env) (refs : List EntityRef)
    (reason : Reason) (now : Int) (s : Store) :
    Cleans env s.rows (a.anonymize env refs reason now s).rows := by
  obtain rfl | rfl | rfl | rfl | rfl | ⟨c, b, rfl, hc⟩ := registry_cases ha
  · cases refs with
    | nil => exact Cleans.refl env s.rows
    | cons ref refs =>
      show Cleans env s.rows ((snapshotTx _ _ _ _ s).rows.update _ _)
      rw [snapshotTx_rows]
      exact anonymizeAmong_cleans (.inr (.inl rfl)) s.rows
  · cases refs with
    | nil => exact Cleans.refl env s.rows
    | cons ref refs =>
      show Cleans env s.rows (List.foldl _ (snapshotTx _ _ _ _ s) _).rows
      suffices h : ∀ ids : List Uuid, ∀ t : Store, t.rows = s.rows →
          Cleans env s.rows (ids.foldl (anonymizePerson env ref.tenantId reason now) t).rows from
        h _ _ (snapshotTx_rows _ _ _ _ s)
      suffices h : ∀ ids : List Uuid, ∀ t : Store,
          Cleans env t.rows (ids.foldl (anonymizePerson env ref.tenantId reason now) t).rows from
        fun ids t ht => ht ▸ h ids t
      intro ids
      induction ids with
      | nil => exact fun t => Cleans.refl env t.rows
      | cons id ids ih =>
        intro t
        exact (anonymizePerson_cleans env ref.tenantId reason now id t).trans (ih _)
  · cases refs with
    | nil => exact Cleans.refl env s.rows
    | cons ref refs =>
      show Cleans env s.rows ((snapshotTx _ _ _ _ s).rows.update _ _)
      rw [snapshotTx_rows]
      exact anonymizeAmong_cleans (.inr (.inr rfl)) s.rows
  · exact Cleans.refl env s.rows
  · exact Cleans.refl env s.rows
  · exact Cleans.refl env s.rows

theorem hardDelete_cleans (ha : a ∈ registry) (env : Env) (refs : List EntityRef)
    (s : Store) : Cleans env s.rows (a.hardDelete refs s).rows := by
  have hrows : ∀ table, Cleans env s.rows (hardDeleteRows table refs s).rows := by
    intro table r hr
    cases refs with
    | nil => exact .inl hr
    | cons ref refs => exact .inl (Table.mem_delete.mp hr).1
  obtain rfl | rfl | rfl | rfl | rfl | ⟨c, b, rfl, hc⟩ := registry_cases ha
  · exact Cleans.refl env s.rows
  · exact Cleans.refl env s.rows
  · exact Cleans.refl env s.rows
  · exact hrows .webhookEvents
  · exact hrows .notifications
  · exact Cleans.refl env s.rows

/-! ## The tables that a round does not write -/

/-- An erasure takes no snapshots and leaves the requests alone. -/
def SameBooks (s s' : Store) : Prop :=
  s'.anonymizationAudit = s.anonymizationAudit ∧ s'.requests = s.requests

theorem SameBooks.trans {s s' s'' : Store} (h : SameBooks s s') (h' : SameBooks s' s'') :
    SameBooks s s'' :=
  ⟨h'.1.trans h.1, h'.2.trans h.2⟩

theorem SameBooks.foldl {β : Type*} {f : Store → β → Store} (h : ∀ s b, SameBooks s (f s b))
    (bs : List β) (s : Store) : SameBooks s (bs.foldl f s) := by
  induction bs generalizing s with
  | nil => exact ⟨rfl, rfl⟩
  | cons b bs ih => exact (h s b).trans (ih (f s b))

theorem anonymizePerson_sameBooks (env : Env) (tenantId : Uuid) (reason : Reason) (now : Int)
    (s : Store) (id : Uuid) : SameBooks s (anonymizePerson env tenantId reason now s id) := by
  unfold anonymizePerson
  split
  · split <;> exact ⟨rfl, rfl⟩
  · exact ⟨rfl, rfl⟩

theorem erase_sameBooks (ha : a ∈ registry) (env : Env) (hardDelete : Bool) (now : Int)
    (refs : List EntityRef) (s : Store) : SameBooks s (a.erase env hardDelete now refs s) := by
  unfold Adapter.erase
  split
  · obtain rfl | rfl | rfl | rfl | rfl | ⟨c, b, rfl, hc⟩ := registry_cases ha
    all_goals cases refs <;> exact ⟨rfl, rfl⟩
  · obtain rfl | rfl | rfl | rfl | rfl | ⟨c, b, rfl, hc⟩ := registry_cases ha
    · cases refs <;> exact ⟨rfl, rfl⟩
    · cases refs with
      | nil => exact ⟨rfl, rfl⟩
      | cons ref refs =>
        exact SameBooks.foldl (anonymizePerson_sameBooks env ref.tenantId .erasureRequest now) _ s
    · cases refs <;> exact ⟨rfl, rfl⟩
    all_goals exact ⟨rfl, rfl⟩

/-! ## Rounds -/

theorem erase_nil (ha : a ∈ registry) (env : Env) (hardDelete : Bool) (now : Int)
    (s : Store) : a.erase env hardDelete now [] s = s := by
  unfold Adapter.erase
  obtain rfl | rfl | rfl | rfl | rfl | ⟨c, b, rfl, hc⟩ := registry_cases ha
  all_goals split <;> rfl

theorem erase_cleans (ha : a ∈ registry) (env : Env) (hardDelete : Bool) (now : Int)
    (refs : List EntityRef) (s : Store) :
    Cleans env s.rows (a.erase env hardDelete now refs s).rows := by
  unfold Adapter.erase
  split
  · exact hardDelete_cleans ha env refs s
  · exact anonymize_cleans ha env refs .erasureRequest now s

theorem erase_ends (ha : a ∈ registry) (env : Env) {hardDelete : Bool}
    (hmode : erasureReaches hardDelete a.category = true) {refs : List EntityRef}
    (hrefs : ∀ ref ∈ refs, ref.resourceType.category = a.category) {tenantId : Uuid}
    (htenant : ∀ ref ∈ refs, ref.tenantId = tenantId) (now : Int) {ref : EntityRef}
    (href : ref ∈ refs) (s : Store) :
    ∀ r ∈ (a.erase env hardDelete now refs s).rows.rows, r.IsAt ref.key tenantId →
      r.live = false := by
  obtain rfl | rfl | rfl | rfl | rfl | ⟨c, b, rfl, hc⟩ := registry_cases ha
  · cases hardDelete with
    | true => cases hmode
    | false => exact anonymize_ends env hrefs htenant now href (.inl rfl) .erasureRequest s
  · cases hardDelete with
    | true => cases hmode
    | false => exact anonymize_ends env hrefs htenant now href (.inr (.inl rfl)) .erasureRequest s
  · have herase : auditEventsAdapter.erase env hardDelete now refs s =
        auditEventsAdapter.anonymize env refs .erasureRequest now s := by
      cases hardDelete <;> rfl
    rw [herase]
    exact anonymize_ends env hrefs htenant now href (.inr (.inr rfl)) .erasureRequest s
  · cases hmode
  · cases hardDelete with
    | true => exact hardDelete_ends hrefs htenant href (.inr rfl) s
    | false => cases hmode
  · exact absurd (hrefs ref href) (hc _)

/-! ## The loop -/

section Loop

variable {env : Env} {input : FulfillErasureInput} {subject : Uuid}

variable {as : List Adapter}

theorem foldl_eraseCategory_rel {R : Store → Store → Prop} (hrefl : ∀ s, R s s)
    (htrans : ∀ s s' s'', R s s' → R s' s'' → R s s'')
    (herase : ∀ a ∈ registry, ∀ s, R s (a.erase env input.hardDelete input.now
      (a.erasureRefs (input.order a.category) s input.tenantId subject) s))
    (has : as ⊆ registry) (p : Progress) :
    R p.store (as.foldl (eraseCategory env input subject) p).store := by
  induction as generalizing p with
  | nil => exact hrefl p.store
  | cons a as ih =>
    obtain ⟨ha, has⟩ := List.cons_subset.mp has
    refine htrans _ _ _ ?_ (ih has _)
    rcases eraseCategory_cases env input subject p a with hsame | herased
    · rw [hsame]
      exact hrefl p.store
    · rw [herased]
      exact herase a ha p.store

theorem foldl_onlyEnds (has : as ⊆ registry) (p : Progress) :
    OnlyEnds p.store.rows (as.foldl (eraseCategory env input subject) p).store.rows :=
  foldl_eraseCategory_rel (R := fun s s' => OnlyEnds s.rows s'.rows) (fun s => OnlyEnds.refl s.rows)
    (fun _ _ _ => OnlyEnds.trans)
    (fun _ ha s => (erase_scrubs ha env _ _ (erasureRefs_category ha) erasureRefs_tenant s).older)
    has p

theorem foldl_users (has : as ⊆ registry) (p : Progress) :
    (as.foldl (eraseCategory env input subject) p).store.users = p.store.users :=
  foldl_eraseCategory_rel (R := fun s s' => s'.users = s.users) (fun _ => rfl)
    (fun _ _ _ h h' => h'.trans h)
    (fun _ ha s => (erase_scrubs ha env _ _ (erasureRefs_category ha) erasureRefs_tenant s).users)
    has p

theorem foldl_cleans (has : as ⊆ registry) (p : Progress) :
    Cleans env p.store.rows (as.foldl (eraseCategory env input subject) p).store.rows :=
  foldl_eraseCategory_rel (R := fun s s' => Cleans env s.rows s'.rows)
    (fun s => Cleans.refl env s.rows) (fun _ _ _ => Cleans.trans)
    (fun _ ha s => erase_cleans ha env _ _ _ s) has p

theorem foldl_sameBooks (has : as ⊆ registry) (p : Progress) :
    SameBooks p.store (as.foldl (eraseCategory env input subject) p).store :=
  foldl_eraseCategory_rel (R := SameBooks) (fun _ => ⟨rfl, rfl⟩) (fun _ _ _ => SameBooks.trans)
    (fun _ ha s => erase_sameBooks ha env _ _ _ s) has p

theorem foldl_anyFailed {p : Progress}
    (h : (as.foldl (eraseCategory env input subject) p).anyFailed = false) : p.anyFailed = false := by
  induction as generalizing p with
  | nil => exact h
  | cons a as ih =>
    have hround := ih h
    unfold eraseCategory at hround
    split at hround
    · exact (Bool.or_eq_false_iff.mp hround).1
    · split at hround
      · exact (Bool.or_eq_false_iff.mp hround).1
      · split at hround <;> exact (Bool.or_eq_false_iff.mp hround).1

theorem eraseCategory_ok {a : Adapter} (ha : a ∈ registry) {p : Progress}
    (h : (eraseCategory env input subject p a).anyFailed = false) :
    (eraseCategory env input subject p a).store =
        a.erase env input.hardDelete input.now
          (a.erasureRefs (input.order a.category) p.store input.tenantId subject) p.store ∧
      ∃ c, (eraseCategory env input subject p a).breakdown a.category = some c ∧
        c.total = (a.erasureRefs (input.order a.category) p.store input.tenantId subject).length := by
  unfold eraseCategory at h ⊢
  cases hfault : input.fault a.category with
  | refs =>
    rw [hfault] at h
    simp [Progress.note] at h
  | none =>
    cases hrefs : a.erasureRefs (input.order a.category) p.store input.tenantId subject with
    | nil => exact ⟨(erase_nil ha env _ _ _).symm, _, if_pos rfl, rfl⟩
    | cons ref refs =>
      refine ⟨rfl, _, if_pos rfl, ?_⟩
      split
      · exact Nat.zero_add _
      · rfl
  | scrub =>
    rw [hfault] at h
    cases hrefs : a.erasureRefs (input.order a.category) p.store input.tenantId subject with
    | nil => exact ⟨(erase_nil ha env _ _ _).symm, _, if_pos rfl, rfl⟩
    | cons ref refs =>
      rw [hrefs] at h
      simp [Progress.note] at h

theorem foldl_no_fault (hfault : ∀ c, input.fault c = .none) (as : List Adapter) (p : Progress) :
    (as.foldl (eraseCategory env input subject) p).anyFailed = p.anyFailed := by
  induction as generalizing p with
  | nil => rfl
  | cons a as ih =>
    rw [List.foldl_cons, ih]
    unfold eraseCategory
    rw [hfault]
    dsimp only
    split
    · exact Bool.or_false _
    · rw [if_neg (by decide)]
      unfold Progress.note
      split <;> exact Bool.or_false _

theorem foldl_breakdown {c : DataCategory} (has : ∀ a ∈ as, a.category ≠ c) (p : Progress) :
    (as.foldl (eraseCategory env input subject) p).breakdown c = p.breakdown c := by
  induction as generalizing p with
  | nil => rfl
  | cons a as ih =>
    rw [List.foldl_cons, ih fun b hb => has b (List.mem_cons_of_mem a hb)]
    have hne : c ≠ a.category := (has a List.mem_cons_self).symm
    unfold eraseCategory
    split
    · exact if_neg hne
    · split
      · exact if_neg hne
      · split <;> exact if_neg hne

end Loop

end Prequest.Privacy
