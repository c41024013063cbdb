import Prequest.Privacy.RowsRead

/-!
# Complete erasure

A fulfilled request says `completed` when no adapter failed. Whether the data of the
person is gone is another question: an adapter may have an empty method for the mode of
the request, a read may stop at its limit, and snapshots of earlier runs stay.

* `completeWhenItSaysSo_iff`: the law holds exactly then.
-/

namespace Prequest.Privacy

open Prequest.Lib Prequest.Visitors

/-! ## The law -/

/-- Nothing of the person is left, and every category counts what it ended. -/
structure Erased (env : Env) (tenantId subject : Uuid) (s s' : Store) (res : FulfillErasureResult) :
    Prop where
  clean : ∀ r ∈ s'.rows.rows, s'.ofSubject tenantId subject r = true → r.personal env = false
  counts : ∀ a ∈ registry, ∃ c, res.breakdown a.category = some c ∧
    c.total = endedRows s s' a.category
  snapshots : ∀ x ∈ s'.anonymizationAudit, x.tenantId = tenantId →
    subject ∉ x.payload.persons s'.users

/-- The request once more, later and without faults. -/
def FulfillErasureInput.again (input : FulfillErasureInput) (now : Int)
    (order : DataCategory → RowOrder) : FulfillErasureInput :=
  { input with now, order, fault := fun _ => .none }

/-- Whatever fails, a request that returns `completed` has erased the person, and one that returns
something else can be fulfilled later and then has. -/
def CompleteWhenItSaysSo (env : Env) (input : FulfillErasureInput) (s : Store) : Prop :=
  ∀ fault order dsr s' res, s.requests.get? input.requestId = some dsr →
    fulfillErasureRequest env { input with fault, order } s = (s', .ok res) →
    (res.status = .completed → Erased env input.tenantId dsr.subjectPersonId s s' res) ∧
    (res.status ≠ .completed → ∀ now, input.now ≤ now → ∀ order', ∃ s'' res',
      fulfillErasureRequest env (input.again now order') s' = (s'', .ok res') ∧
        res'.status = .completed ∧ Erased env input.tenantId dsr.subjectPersonId s' s'' res')

/-! ## The condition -/

/-- No hold is active, the mode of the request scrubs every category with a live row of the person,
rows that are marked as anonymized are clean, the person has no more live audit events than a read
returns or none with personal data, and no snapshot of a row of the person is kept. -/
structure Erasable (env : Env) (input : FulfillErasureInput) (s : Store) (subject : Uuid) : Prop where
  free : s.erasureHold input.now input.tenantId subject = false
  scrubbed : ∀ r ∈ s.rows.rows, s.ofSubject input.tenantId subject r = true → r.live = true →
    erasureReaches input.hardDelete r.category = true
  marked : ∀ r ∈ s.rows.rows, s.ofSubject input.tenantId subject r = true → r.live = false →
    r.personal env = false
  auditEvents :
    s.rows.rows.countP (liveAuditEvent s input.tenantId subject) ≤ scanLimit ∨
      ∀ r ∈ s.rows.rows, liveAuditEvent s input.tenantId subject r = true → r.personal env = false
  snapshots : ∀ x ∈ s.anonymizationAudit, x.tenantId = input.tenantId →
    subject ∈ x.payload.persons s.users → x.purged input.tenantId subject = true

/-! ## The condition is enough -/

variable {res : FulfillErasureResult}

section Enough

variable {env : Env} {input : FulfillErasureInput} {subject : Uuid} {s : Store}

theorem clean_after (h : Erasable env input s subject)
    (hok : (eraseAll env input subject s).anyFailed = false) :
    ∀ r ∈ (eraseAll env input subject s).store.rows.rows,
      s.ofSubject input.tenantId subject r = true → r.personal env = false := by
  intro r hr hsubject
  cases hlive : r.live with
  | false =>
    rcases foldl_cleans (List.Subset.refl registry) ⟨s, fun _ => none, 0, false⟩ r hr with
      hmem | hlive' | hclean
    · exact h.marked r hmem hsubject hlive
    · rw [hlive] at hlive'
      cases hlive'
    · exact hclean
  | true =>
    obtain ⟨r₀, hr₀, hbare⟩ := foldl_onlyEnds (List.Subset.refl registry)
      ⟨s, fun _ => none, 0, false⟩ r hr hlive
    have hlive₀ : r₀.live = true := by rw [← Row.live_bare, hbare, Row.live_bare, hlive]
    have hsubject₀ : s.ofSubject input.tenantId subject r₀ = true := by
      rw [← Store.ofSubject_bare, hbare, Store.ofSubject_bare, hsubject]
    obtain ⟨htenant₀, hperson₀⟩ := Store.ofSubject_iff.mp hsubject₀
    obtain ⟨a, ha, hcategory, _⟩ := exists_adapter hlive₀ hperson₀
    have hmode := h.scrubbed r₀ hr₀ hsubject₀ hlive₀
    obtain ⟨pre, post, hsplit⟩ := List.append_of_mem ha
    by_cases hread : a.category = .auditEvents →
        s.rows.rows.countP (liveAuditEvent s input.tenantId subject) ≤ scanLimit
    · have hmem : r₀ ∈ rowsRead env input subject s pre a :=
        mem_rowsRead_of_few hsplit hr₀ hcategory.symm hlive₀ hsubject₀ hread
      have hat : r.IsAt (key r₀) input.tenantId := by
        constructor
        · rw [← Row.key_bare, ← hbare, Row.key_bare]
        · exact (Store.ofSubject_iff.mp hsubject).1
      rw [ended_after hsplit hok (hcategory ▸ hmode) hmem r hr hat] at hlive
      cases hlive
    · -- The person has more audit events than a read returns, and they are clean.
      obtain ⟨hcategory', hmany⟩ := Classical.not_imp.mp hread
      have haudit : r₀.category = .auditEvents := hcategory.symm.trans hcategory'
      have hvisits : r₀.category ≠ .visitorRecords := by rw [haudit]; decide
      have hvisits' : r.category ≠ .visitorRecords := by
        rwa [Row.category, ← Row.resourceType_bare, ← hbare, Row.resourceType_bare]
      obtain rfl : r₀ = r := by rw [← bare_eq_self hvisits, hbare, bare_eq_self hvisits']
      rcases h.auditEvents with hfew | hclean
      · exact absurd hfew hmany
      · exact hclean r₀ hr₀ (by simp [liveAuditEvent, hlive₀, haudit, hsubject₀])

theorem counts_after (h : Erasable env input s subject)
    (hok : (eraseAll env input subject s).anyFailed = false) :
    ∀ a ∈ registry, ∃ c, (eraseAll env input subject s).breakdown a.category = some c ∧
      c.total = endedRows s (eraseAll env input subject s).store a.category := by
  intro a ha
  obtain ⟨pre, post, hsplit⟩ := List.append_of_mem ha
  obtain ⟨c, hc, htotal⟩ := breakdown_after hsplit hok
  refine ⟨c, hc, htotal.trans (endedRows_after hsplit hok ?_).symm⟩
  intro r hr
  obtain ⟨r₀, hr₀, _, _, hcategory, hlive, hsubject⟩ := rowsRead_origin (split_sub hsplit).1 ha hr
  rw [← hcategory]
  exact h.scrubbed r₀ hr₀ hsubject hlive

def finish (input : FulfillErasureInput) (subject : Uuid) (p : Progress) :
    Store × FulfillErasureResult :=
  let status := if p.anyFailed then .partiallyDone else .completed
  let kept := p.store.anonymizationAudit.filter fun x => !x.purged input.tenantId subject
  (({ p.store with anonymizationAudit := kept } : Store).setRequest input status,
    { breakdown := p.breakdown, totalProcessed := p.totalProcessed, status })

theorem finish_status {p : Progress} :
    (finish input subject p).2.status = .completed ↔ p.anyFailed = false := by
  unfold finish
  cases p.anyFailed <;> simp

structure Open (input : FulfillErasureInput) (s : Store) (dsr : DsrRow) : Prop where
  found : s.requests.get? input.requestId = some dsr
  tenant : dsr.tenantId = input.tenantId
  notDenied : dsr.status ≠ .denied
  notCompleted : dsr.status ≠ .completed

variable {dsr : DsrRow}

theorem fulfill_of_free (hopen : Open input s dsr)
    (hfree : s.erasureHold input.now input.tenantId dsr.subjectPersonId = false) :
    fulfillErasureRequest env input s =
      ((finish input dsr.subjectPersonId (eraseAll env input dsr.subjectPersonId s)).1,
        .ok (finish input dsr.subjectPersonId (eraseAll env input dsr.subjectPersonId s)).2) := by
  unfold fulfillErasureRequest
  rw [hopen.found]
  dsimp only
  rw [if_neg (not_not.mpr hopen.tenant), if_neg hopen.notDenied, if_neg hopen.notCompleted, hfree]
  rfl

theorem fulfill_of_hold (hopen : Open input s dsr)
    (hhold : s.erasureHold input.now input.tenantId dsr.subjectPersonId = true) :
    fulfillErasureRequest env input s =
      (s.setRequest input .denied,
        .ok { breakdown := fun _ => none, totalProcessed := 0, status := .partiallyDone }) := by
  unfold fulfillErasureRequest
  rw [hopen.found]
  dsimp only
  rw [if_neg (not_not.mpr hopen.tenant), if_neg hopen.notDenied, if_neg hopen.notCompleted, hhold]
  rfl

theorem open_of_ok {s' : Store} (hget : s.requests.get? input.requestId = some dsr)
    (h : fulfillErasureRequest env input s = (s', .ok res)) : Open input s dsr := by
  unfold fulfillErasureRequest at h
  simp only [hget] at h
  split at h
  · cases h
  rename_i htenant
  split at h
  · cases h
  rename_i hdenied
  split at h
  · cases h
  rename_i hcompleted
  exact ⟨hget, not_not.mp htenant, hdenied, hcompleted⟩

theorem get?_setRequest (hopen : Open input s dsr) {t : Store}
    (ht : t.requests = s.requests) (status : DsrStatus) :
    (t.setRequest input status).requests.get? input.requestId = some { dsr with status } := by
  unfold Store.setRequest
  rw [Table.get?_update, ht, hopen.found]
  have hid : dsr.id = input.requestId := (Table.get?_eq_some.mp hopen.found).2
  show some (Table.updated _ _ dsr) = _
  rw [Table.updated_of_true (by simp [hopen.tenant, hid])]
  rfl

theorem finish_users (p : Progress) : (finish input subject p).1.users = p.store.users := rfl

theorem finish_rows (p : Progress) : (finish input subject p).1.rows = p.store.rows := rfl

theorem mem_finish_audit {p : Progress} {x : Snapshot} :
    x ∈ (finish input subject p).1.anonymizationAudit ↔
      x ∈ p.store.anonymizationAudit ∧ (!x.purged input.tenantId subject) = true :=
  List.mem_filter

theorem eraseAll_users : (eraseAll env input subject s).store.users = s.users :=
  foldl_users (List.Subset.refl registry) ⟨s, fun _ => none, 0, false⟩

theorem eraseAll_sameBooks : SameBooks s (eraseAll env input subject s).store :=
  foldl_sameBooks (List.Subset.refl registry) ⟨s, fun _ => none, 0, false⟩

theorem eraseAll_legalHolds : (eraseAll env input subject s).store.legalHolds = s.legalHolds :=
  foldl_eraseCategory_rel (R := fun s s' => s'.legalHolds = s.legalHolds) (fun _ => rfl)
    (fun _ _ _ h h' => h'.trans h)
    (fun _ ha s => (erase_scrubs ha env _ _ (erasureRefs_category ha) erasureRefs_tenant s).legalHolds)
    (List.Subset.refl registry) ⟨s, fun _ => none, 0, false⟩

theorem erased_of_erasable (h : Erasable env input s subject)
    (hok : (eraseAll env input subject s).anyFailed = false) :
    Erased env input.tenantId subject s (finish input subject (eraseAll env input subject s)).1
      (finish input subject (eraseAll env input subject s)).2 := by
  refine ⟨?_, counts_after h hok, ?_⟩
  · intro r hr hsubject
    have husers : (eraseAll env input subject s).store.users = s.users := eraseAll_users
    refine clean_after h hok r hr ?_
    rw [← Store.ofSubject_users husers]
    exact hsubject
  · intro x hx htenant hmem
    obtain ⟨hx, hpurged⟩ := List.mem_filter.mp hx
    rw [eraseAll_sameBooks.1] at hx
    rw [finish_users, eraseAll_users] at hmem
    rw [h.snapshots x hx htenant hmem] at hpurged
    cases hpurged

theorem LegalHold.active_mono {h : LegalHold} {now now' : Int} (hle : now ≤ now')
    (hactive : h.active now' = true) : h.active now = true := by
  simp only [LegalHold.active, Bool.and_eq_true] at hactive ⊢
  refine ⟨hactive.1, ?_⟩
  cases hexp : h.expiresAt with
  | none => rfl
  | some t =>
    have hlt := hactive.2
    rw [hexp] at hlt
    have hlt' : now' < t := of_decide_eq_true hlt
    exact decide_eq_true (by omega)

theorem erasureHold_mono {now now' : Int} (hle : now ≤ now') {tenantId : Uuid}
    (h : s.erasureHold now tenantId subject = false) :
    s.erasureHold now' tenantId subject = false := by
  have hany : ∀ p : LegalHold → Bool, (s.legalHolds.any fun x => p x && x.active now) = false →
      (s.legalHolds.any fun x => p x && x.active now') = false := by
    intro p hp
    rw [List.any_eq_false] at hp ⊢
    intro x hx hactive
    rw [Bool.and_eq_true] at hactive
    exact hp x hx (Bool.and_eq_true_iff.mpr ⟨hactive.1, LegalHold.active_mono hle hactive.2⟩)
  unfold Store.erasureHold at h ⊢
  rw [Bool.or_eq_false_iff] at h ⊢
  exact ⟨hany _ h.1, hany _ h.2⟩

theorem erasable_again (h : Erasable env input s subject) {now : Int} (hle : input.now ≤ now)
    (order : DataCategory → RowOrder) :
    Erasable env (input.again now order) (finish input subject (eraseAll env input subject s)).1
      subject := by
  have hends : OnlyEnds s.rows (eraseAll env input subject s).store.rows :=
    foldl_onlyEnds (List.Subset.refl registry) ⟨s, fun _ => none, 0, false⟩
  have hsubject : ∀ r, (finish input subject (eraseAll env input subject s)).1.ofSubject
      input.tenantId subject r = s.ofSubject input.tenantId subject r :=
    Store.ofSubject_users eraseAll_users input.tenantId subject
  have horigin : ∀ r ∈ (eraseAll env input subject s).store.rows.rows, r.live = true →
      s.ofSubject input.tenantId subject r = true →
      ∃ r₀ ∈ s.rows.rows, r₀.bare = r.bare ∧ r₀.live = true ∧
        s.ofSubject input.tenantId subject r₀ = true ∧ r₀.category = r.category := by
    intro r hr hlive hof
    obtain ⟨r₀, hr₀, hbare⟩ := hends r hr hlive
    refine ⟨r₀, hr₀, hbare, ?_, ?_, ?_⟩
    · rw [← Row.live_bare, hbare, Row.live_bare, hlive]
    · rw [← Store.ofSubject_bare, hbare, Store.ofSubject_bare, hof]
    · rw [Row.category, ← Row.resourceType_bare, hbare, Row.resourceType_bare]
      rfl
  refine ⟨?_, ?_, ?_, ?_, ?_⟩
  · have hfree := erasureHold_mono hle h.free
    unfold Store.erasureHold Store.hasTenantWideHold Store.hasPersonHold at hfree ⊢
    have hholds : (eraseAll env input subject s).store.legalHolds = s.legalHolds :=
      eraseAll_legalHolds
    rw [← hholds] at hfree
    exact hfree
  · intro r hr hof hlive
    obtain ⟨r₀, hr₀, _, hlive₀, hof₀, hcategory⟩ :=
      horigin r hr hlive ((hsubject r).symm.trans hof)
    rw [← hcategory]
    exact h.scrubbed r₀ hr₀ hof₀ hlive₀
  · intro r hr hof hlive
    rcases foldl_cleans (List.Subset.refl registry) ⟨s, fun _ => none, 0, false⟩ r hr with
      hmem | hlive' | hclean
    · exact h.marked r hmem ((hsubject r).symm.trans hof) hlive
    · rw [hlive] at hlive'
      cases hlive'
    · exact hclean
  · have haudit : liveAuditEvent (finish input subject (eraseAll env input subject s)).1
        input.tenantId subject = liveAuditEvent s input.tenantId subject := by
      funext r
      unfold liveAuditEvent
      rw [hsubject]
    show (eraseAll env input subject s).store.rows.rows.countP (liveAuditEvent _ input.tenantId subject)
      ≤ scanLimit ∨ _
    rw [haudit]
    rcases h.auditEvents with hfew | hclean
    · left
      refine Nat.le_trans ?_ hfew
      exact hends.countP_le (liveAuditEvent_bare input.tenantId subject) fun _ => liveAuditEvent_live
    · right
      intro r hr hof
      have hspec : liveAuditEvent s input.tenantId subject r = true :=
        (congrFun haudit r).symm.trans hof
      simp only [liveAuditEvent, Bool.and_eq_true, beq_iff_eq] at hspec
      obtain ⟨⟨hlive, hcategory⟩, hof'⟩ := hspec
      obtain ⟨r₀, hr₀, hbare, hlive₀, hof₀, hcategory₀⟩ := horigin r hr hlive hof'
      have hvisits : r.category ≠ .visitorRecords := by rw [hcategory]; decide
      obtain rfl : r₀ = r := by
        rw [← bare_eq_self hvisits, ← hbare, bare_eq_self (hcategory₀ ▸ hvisits)]
      exact hclean r₀ hr₀ (by simp [liveAuditEvent, hlive, hcategory, hof'])
  · intro x hx htenant hmem
    obtain ⟨hx, _⟩ := List.mem_filter.mp hx
    rw [eraseAll_sameBooks.1] at hx
    rw [finish_users, eraseAll_users] at hmem
    exact h.snapshots x hx htenant hmem

theorem open_again (hopen : Open input s dsr) (now : Int) (order : DataCategory → RowOrder)
    (hfailed : (eraseAll env input dsr.subjectPersonId s).anyFailed = true) :
    Open (input.again now order)
      (finish input dsr.subjectPersonId (eraseAll env input dsr.subjectPersonId s)).1
      { dsr with status := .partiallyDone } := by
  refine ⟨?_, hopen.tenant, by simp, by simp⟩
  have hget := get?_setRequest hopen
    (t := { (eraseAll env input dsr.subjectPersonId s).store with
      anonymizationAudit := (eraseAll env input dsr.subjectPersonId s).store.anonymizationAudit.filter
        fun x => !x.purged input.tenantId dsr.subjectPersonId })
    eraseAll_sameBooks.2 .partiallyDone
  unfold finish
  rw [hfailed]
  exact hget

theorem complete_of_erasable (env : Env) (input : FulfillErasureInput) (s : Store)
    (h : ∀ dsr, Open input s dsr → Erasable env input s dsr.subjectPersonId) :
    CompleteWhenItSaysSo env input s := by
  intro fault order dsr s' res hget hcall
  have hopen : Open { input with fault, order } s dsr := open_of_ok hget hcall
  have herasable : Erasable env { input with fault, order } s dsr.subjectPersonId :=
    let h := h dsr ⟨hopen.found, hopen.tenant, hopen.notDenied, hopen.notCompleted⟩
    ⟨h.free, h.scrubbed, h.marked, h.auditEvents, h.snapshots⟩
  rw [fulfill_of_free hopen herasable.free] at hcall
  cases hcall
  constructor
  · intro hstatus
    exact erased_of_erasable herasable (finish_status.mp hstatus)
  · intro hstatus now hle order'
    have hfailed : (eraseAll env { input with fault, order } dsr.subjectPersonId s).anyFailed =
        true := by
      by_contra hnot
      exact hstatus (finish_status.mpr (Bool.eq_false_iff.mpr hnot))
    have hopen' := open_again hopen now order' hfailed
    have herasable' := erasable_again herasable hle order'
    have hok : ∀ t, (eraseAll env (input.again now order') dsr.subjectPersonId t).anyFailed = false :=
      fun t => foldl_no_fault (fun _ => rfl) registry _
    exact ⟨_, _, fulfill_of_free hopen' herasable'.free, finish_status.mpr (hok _),
      erased_of_erasable herasable' (hok _)⟩

end Enough

/-! ## The condition is needed -/

section Needed

variable {env : Env} {input : FulfillErasureInput} {s : Store} {dsr : DsrRow}

theorem free_of_complete (h : CompleteWhenItSaysSo env input s) (hopen : Open input s dsr)
    (order : DataCategory → RowOrder) :
    s.erasureHold input.now input.tenantId dsr.subjectPersonId = false := by
  apply Bool.eq_false_iff.mpr
  intro hhold
  obtain ⟨s'', res', hcall, _⟩ := (h input.fault input.order dsr _ _ hopen.found
    (fulfill_of_hold hopen hhold)).2 (by simp) input.now (Int.le_refl _) order
  have hdenied : (s.setRequest input .denied).requests.get? input.requestId =
      some { dsr with status := .denied } := get?_setRequest hopen rfl .denied
  have hreopen : Open (input.again input.now order) _ _ := open_of_ok hdenied hcall
  exact hreopen.notDenied rfl

theorem erased_of_complete (h : CompleteWhenItSaysSo env input s) (hopen : Open input s dsr)
    (hfree : s.erasureHold input.now input.tenantId dsr.subjectPersonId = false)
    {again : FulfillErasureInput} {order : DataCategory → RowOrder}
    (hagain : again = input.again input.now order) :
    (eraseAll env again dsr.subjectPersonId s).anyFailed = false ∧
      Erased env input.tenantId dsr.subjectPersonId s
        (finish again dsr.subjectPersonId (eraseAll env again dsr.subjectPersonId s)).1
        (finish again dsr.subjectPersonId (eraseAll env again dsr.subjectPersonId s)).2 := by
  subst hagain
  have hok : (eraseAll env (input.again input.now order) dsr.subjectPersonId s).anyFailed = false :=
    foldl_no_fault (fun _ => rfl) registry _
  have hopen' : Open (input.again input.now order) s dsr :=
    ⟨hopen.found, hopen.tenant, hopen.notDenied, hopen.notCompleted⟩
  exact ⟨hok, (h (fun _ => .none) order dsr _ _ hopen.found (fulfill_of_free hopen' hfree)).1
    (finish_status.mpr hok)⟩

variable {subject : Uuid}

theorem clean_of_erased {tenantId : Uuid}
    (h : Erased env tenantId subject s (finish input subject (eraseAll env input subject s)).1 res) :
    ∀ q ∈ (eraseAll env input subject s).store.rows.rows,
      s.ofSubject tenantId subject q = true → q.personal env = false := by
  intro q hq hof
  refine h.clean q ?_ ?_
  · rw [finish_rows]
    exact hq
  · rw [Store.ofSubject_users ((finish_users _).trans eraseAll_users)]
    exact hof

variable {r : Row}

theorem kept_of_not_reaches (hr : r ∈ s.rows.rows)
    (hmode : erasureReaches input.hardDelete r.category = false) :
    r ∈ (eraseAll env input subject s).store.rows.rows := by
  have hscrubs : Scrubs (fun x => erasureReaches input.hardDelete x.category = true) s
      (eraseAll env input subject s).store := by
    refine eraseAll_scrubs fun a ha p _ => ?_
    rcases eraseCategory_cases env input subject p a with hsame | herase
    · rw [hsame]
      exact Scrubs.refl _ _
    rw [herase]
    cases hreaches : erasureReaches input.hardDelete a.category with
    | false =>
      rw [erase_of_not_reaches ha env hreaches input.now rfl]
      exact Scrubs.refl _ _
    | true =>
      refine (erase_scrubs ha env _ _ (erasureRefs_category ha) erasureRefs_tenant _).mono ?_
      rintro x hx ⟨ref, href, hreach⟩
      obtain ⟨q, hq, _, hbelongs, rfl⟩ := mem_erasureRefs href
      have hspec := belongsTo_spec ha hbelongs
      rcases hreach with hkey | ⟨htype, _, hvisitor⟩
      · obtain rfl : x = q := p.store.rows.eq_of_key_eq hx hq hkey
        rw [hspec.1]
        exact hreaches
      · rw [← hspec.1, Row.category, show q.resourceType = .persons from htype] at hreaches
        rw [Row.category, Row.resourceType_of_visitorOf hvisitor]
        exact hreaches
  refine hscrubs.kept r hr ?_
  rw [hmode]
  simp

theorem kept_of_dead (hr : r ∈ s.rows.rows) (hdead : r.live = false) :
    r ∈ (eraseAll env input subject s).store.rows.rows := by
  have hscrubs : Scrubs (fun x => x.live = true) s (eraseAll env input subject s).store := by
    refine eraseAll_scrubs fun a ha p _ => ?_
    rcases eraseCategory_cases env input subject p a with hsame | herase
    · rw [hsame]
      exact Scrubs.refl _ _
    rw [herase]
    refine (erase_scrubs ha env _ _ (erasureRefs_category ha) erasureRefs_tenant _).mono ?_
    rintro x hx ⟨ref, href, hreach⟩
    obtain ⟨q, hq, _, hbelongs, rfl⟩ := mem_erasureRefs href
    rcases hreach with hkey | ⟨_, _, hvisitor⟩
    · obtain rfl : x = q := p.store.rows.eq_of_key_eq hx hq hkey
      exact (belongsTo_spec ha hbelongs).2.1
    · exact Row.live_of_visitorOf hvisitor
  refine hscrubs.kept r hr ?_
  rw [hdead]
  simp

def lastOf (r : Row) : RowOrder where
  arrange rows := rows.filter (fun q => !decide (q = r)) ++ rows.filter fun q => decide (q = r)
  arrange_perm rows := List.perm_append_comm.trans (List.filter_append_perm _ rows)

theorem not_mem_take_lastOf {rows : List Row} (hnodup : rows.Nodup) {limit : Nat}
    (hmany : limit < rows.length) : r ∉ ((lastOf r).arrange rows).take limit := by
  have hone : (rows.filter fun q => decide (q = r)).length ≤ 1 := by
    rw [← List.countP_eq_length_filter]
    have hcount := List.nodup_iff_count_le_one.mp hnodup r
    rwa [List.count, List.countP_congr (q := fun q => decide (q = r)) (by simp)] at hcount
  have hlength := List.length_eq_length_filter_add (l := rows) fun q => decide (q = r)
  show r ∉ (rows.filter (fun q => !decide (q = r)) ++ _).take limit
  rw [List.take_append_of_le_length (by omega)]
  intro hmem
  have hfilter := (List.mem_filter.mp (List.mem_of_mem_take hmem)).2
  simp at hfilter

theorem scrubbed_of_erased (hok : (eraseAll env input subject s).anyFailed = false)
    (hcounts : ∀ a ∈ registry, ∃ c, (eraseAll env input subject s).breakdown a.category = some c ∧
      c.total = endedRows s (eraseAll env input subject s).store a.category)
    (hr : r ∈ s.rows.rows) (hof : s.ofSubject input.tenantId subject r = true)
    (hlive : r.live = true) : erasureReaches input.hardDelete r.category = true := by
  by_contra hnot
  have hmode := Bool.eq_false_iff.mpr hnot
  obtain ⟨a, ha, hcategory, _⟩ := exists_adapter hlive (Store.ofSubject_iff.mp hof).2
  obtain ⟨pre, post, hsplit⟩ := List.append_of_mem ha
  obtain ⟨c, hc, htotal⟩ := hcounts a ha
  obtain ⟨c', hc', htotal'⟩ := breakdown_after hsplit hok
  rw [hc] at hc'
  cases hc'
  have hread : r ∈ rowsRead env input subject s pre a := by
    refine mem_rowsRead_of_few hsplit hr hcategory.symm hlive hof ?_
    intro haudit
    rw [← hcategory, haudit] at hmode
    cases hmode
  have hpos := List.length_pos_of_mem hread
  have hnone : endedRows s (eraseAll env input subject s).store a.category = 0 := by
    refine List.countP_eq_zero.mpr ?_
    intro x hx hended
    simp only [Bool.and_eq_true, beq_iff_eq, Bool.not_eq_true', List.any_eq_false] at hended
    obtain ⟨⟨hxcategory, hxlive⟩, hgone⟩ := hended
    have hkept : x ∈ (eraseAll env input subject s).store.rows.rows := by
      refine kept_of_not_reaches hx ?_
      rw [hxcategory, hcategory]
      exact hmode
    exact hgone x hkept ⟨rfl, hxlive⟩
  omega

theorem auditEvents_found {pre post : List Adapter}
    (hsplit : registry = pre ++ auditEventsAdapter :: post) {p : Row → Bool}
    (hp : ∀ r, liveAuditEvent s input.tenantId subject r = true → p r = true) :
    s.rows.rows.countP (liveAuditEvent s input.tenantId subject) ≤
      ((progressBefore env input subject s pre).store.rows.rows.filter p).length := by
  rw [List.countP_eq_length_filter]
  refine (List.subperm_of_subset (s.rows.nodup.of_map.filter _) ?_).length_le
  intro r hr
  obtain ⟨hmem, haudit⟩ := List.mem_filter.mp hr
  refine List.mem_filter.mpr ⟨kept_before hsplit hmem ?_, hp r haudit⟩
  simp only [liveAuditEvent, Bool.and_eq_true, beq_iff_eq] at haudit
  exact haudit.1.2

theorem auditEvents_of_clean (input : FulfillErasureInput)
    (hr : r ∈ s.rows.rows) (hlast : input.order .auditEvents = lastOf r)
    (hmany : scanLimit < s.rows.rows.countP (liveAuditEvent s input.tenantId subject))
    (haudit : liveAuditEvent s input.tenantId subject r = true)
    (hclean : ∀ q ∈ (eraseAll env input subject s).store.rows.rows,
      s.ofSubject input.tenantId subject q = true → q.personal env = false) :
    r.personal env = false := by
  have hspec := haudit
  simp only [liveAuditEvent, Bool.and_eq_true, beq_iff_eq] at hspec
  obtain ⟨pre, post, hsplit⟩ := List.append_of_mem (show auditEventsAdapter ∈ registry by simp [registry])
  refine hclean r (kept_after hsplit hr hspec.1.2 ?_) hspec.2
  intro hmem
  obtain ⟨q, hq, hkey⟩ := List.mem_map.mp hmem
  have hkept : r ∈ (progressBefore env input subject s pre).store.rows.rows :=
    kept_before hsplit hr hspec.1.2
  obtain rfl : q = r := (progressBefore env input subject s pre).store.rows.eq_of_key_eq
    (mem_erasureRows hq).1 hkept hkey
  unfold rowsRead Adapter.erasureRows Store.select at hq
  rw [show auditEventsAdapter.erasureLimit = some scanLimit from rfl,
    show input.order auditEventsAdapter.category = lastOf q from hlast] at hq
  dsimp only at hq
  refine not_mem_take_lastOf ?_ ?_ hq
  · exact (progressBefore env input subject s pre).store.rows.nodup.of_map.filter _
  · refine Nat.lt_of_lt_of_le hmany (auditEvents_found hsplit ?_)
    intro x hx
    simp only [liveAuditEvent, Bool.and_eq_true, beq_iff_eq] at hx
    obtain ⟨⟨hlive, hcategory⟩, hof⟩ := hx
    obtain ⟨htenant, hperson⟩ := Store.ofSubject_iff.mp hof
    obtain ⟨a, ha, ha', hbelongs, _⟩ := exists_adapter hlive hperson
    obtain rfl : a = auditEventsAdapter :=
      adapter_eq_of_category ha (by simp [registry]) (ha'.trans hcategory)
    rw [before_users (split_sub hsplit).1, htenant, beq_self_eq_true, Bool.true_and]
    exact hbelongs

theorem erasable_of_complete (h : CompleteWhenItSaysSo env input s) (hopen : Open input s dsr) :
    Erasable env input s dsr.subjectPersonId := by
  have hfree := free_of_complete h hopen input.order
  obtain ⟨again, hagain⟩ : ∃ again, again = input.again input.now input.order := ⟨_, rfl⟩
  obtain ⟨hok, herased⟩ := erased_of_complete h hopen hfree hagain
  have htenant : again.tenantId = input.tenantId := by rw [hagain]; rfl
  have hmode : again.hardDelete = input.hardDelete := by rw [hagain]; rfl
  refine ⟨hfree, ?_, ?_, ?_, ?_⟩
  · intro r hr hof hlive
    rw [← hmode]
    rw [← htenant] at hof
    exact scrubbed_of_erased hok herased.counts hr hof hlive
  · intro r hr hof hdead
    exact clean_of_erased herased r (kept_of_dead hr hdead) hof
  · by_contra hnot
    obtain ⟨hmany, hpersonal⟩ := not_or.mp hnot
    apply hpersonal
    intro r hr haudit
    -- The database may return the rows of a read in any order.
    obtain ⟨last, hlast⟩ : ∃ last, last = input.again input.now fun _ => lastOf r := ⟨_, rfl⟩
    obtain ⟨_, herased'⟩ := erased_of_complete h hopen hfree hlast
    have hlastTenant : last.tenantId = input.tenantId := by rw [hlast]; rfl
    have horder : last.order .auditEvents = lastOf r := by rw [hlast]; rfl
    rw [← hlastTenant] at hmany haudit herased'
    exact auditEvents_of_clean last hr horder (Nat.lt_of_not_le hmany) haudit
      (clean_of_erased herased')
  · intro x hx hxtenant hmem
    by_contra hpurged
    refine herased.snapshots x ?_ hxtenant ?_
    · refine mem_finish_audit.mpr ⟨?_, ?_⟩
      · rw [eraseAll_sameBooks.1]
        exact hx
      · rw [htenant, Bool.eq_false_iff.mpr hpurged]
        rfl
    · rw [finish_users, eraseAll_users]
      exact hmem

end Needed

def ada : PersonRow where
  id := 1
  tenantId := 7
  firstName := "Ada"
  lastName := "Byron"
  email := some "ada@example.org"
  phone := none
  avatarUrl := none
  leftAt := none
  anonymizedAt := none
  anonymizedReason := none

theorem nodup_requestOfAda : ([(⟨3, 7, 1, .inProgress⟩ : DsrRow)].map key).Nodup := by decide

def storeOfAda : Store where
  rows := ⟨[.person ada], by decide⟩
  users := []
  legalHolds := []
  retentionDays _ _ := some 90
  anonymizationAudit := []
  requests := ⟨[⟨3, 7, 1, .inProgress⟩], nodup_requestOfAda⟩

def deletionOfAda : FulfillErasureInput where
  tenantId := 7
  requestId := 3
  hardDelete := true
  now := 1700000000
  fault _ := .none
  order _ := ⟨id, fun _ => List.Perm.refl _⟩

end Prequest.Privacy
