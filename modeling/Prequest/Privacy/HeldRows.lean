import Prequest.Lib.Run
import Prequest.Privacy.Erasure
import Prequest.Privacy.Retention
import Mathlib.Data.List.Sort

/-!
# Legal holds over runs

Retention runs and erasure requests in any order, with holds placed, released and
expiring between them. A retention run looks at the holds on the category and on all
persons of a row. An erasure request looks at the holds on the tenant and on its own
subject only, and a trigger takes the names off the visits of an anonymized person.

* `held_rows_stay_and_free_rows_end`: the law over runs.
-/

namespace Prequest.Privacy

open Prequest.Lib Prequest.Visitors

/-! ## The system -/

inductive Act where
  | retention (run : RetentionRun)
  | createErasure (input : CreateErasureInput)
  | fulfillErasure (input : FulfillErasureInput)
  | placeHold (hold : LegalHold)
  | releaseHold (tenantId holdId : Uuid) (now : Int)
  | setRetention (tenantId : Uuid) (category : DataCategory) (days : Option Int)
  | application (rows : Table Row) (users : List UserRow)

/-- `LegalHoldService.release`. -/
def releaseHold (tenantId holdId : Uuid) (now : Int) (h : LegalHold) : LegalHold :=
  if h.tenantId == tenantId && h.id == holdId && h.releasedAt.isNone then
    { h with releasedAt := some now }
  else h

def step (env : Env) (s : Store) : Act → Store
  | .retention run => (applyRetention env run s).1
  | .createErasure input => (createErasureRequest input s).1
  | .fulfillErasure input => (fulfillErasureRequest env input s).1
  | .placeHold hold => { s with legalHolds := s.legalHolds ++ [hold] }
  | .releaseHold tenantId holdId now =>
      { s with legalHolds := s.legalHolds.map (releaseHold tenantId holdId now) }
  | .setRetention tenantId category days =>
      { s with
        retentionDays := fun t c =>
          if t = tenantId ∧ c = category then days else s.retentionDays t c }
  | .application rows users => { s with rows, users }

/-- The time of a step of the privacy module. -/
def Act.now : Act → Option Int
  | .retention run => some run.now
  | .createErasure input => some input.now
  | .fulfillErasure input => some input.now
  | _ => none

def Spares (env : Env) (s : Store) (act : Act) : Prop :=
  ∀ now, act.now = some now → ∀ r ∈ s.rows.rows, s.Held now r → r ∈ (step env s act).rows.rows

/-! ## The condition on a step -/

/-- A hold covers the row that an erasure of `subject` does not look for. -/
def Store.HeldBesides (s : Store) (now : Int) (subject : Uuid) (r : Row) : Prop :=
  s.hasCategoryHold now r.tenantId r.category = true ∨
    ∃ p ∈ r.persons s.users, p ≠ subject ∧ s.hasPersonHold now r.tenantId p = true

/-- A run over persons finds no due person with a held visit, and a request no row of its subject
that it scrubs with a hold on the category or on another person of the row. -/
def Clear (s : Store) : Act → Prop
  | .retention run =>
      run.category = .personRefInPastRecords →
        ∀ v ∈ s.rows.rows, ∀ p ∈ s.rows.rows, v.tenantId = run.tenantId →
          p.resourceType = .persons → v.visitorOf = some p.id → run.isDue s p = true →
            ¬s.Held run.now p → ¬s.Held run.now v
  | .fulfillErasure input =>
      ∀ dsr, s.requests.get? input.requestId = some dsr →
        ∀ r ∈ s.rows.rows, r.tenantId = input.tenantId → r.live = true →
          dsr.subjectPersonId ∈ r.persons s.users →
          erasureReaches input.hardDelete r.category = true →
            ¬s.HeldBesides input.now dsr.subjectPersonId r
  | _ => True

variable {s : Store} {r : Row}

theorem not_held_of_erasure {now : Int} {subject : Uuid}
    (hhold : s.erasureHold now r.tenantId subject = false) (hbesides : ¬s.HeldBesides now subject r) :
    ¬s.Held now r := by
  unfold Store.erasureHold at hhold
  rw [Bool.or_eq_false_iff] at hhold
  rintro (htenant | hcategory | ⟨p, hp, hperson⟩)
  · rw [hhold.1] at htenant
    cases htenant
  · exact hbesides (.inl hcategory)
  · by_cases hsubject : p = subject
    · rw [hsubject, hhold.2] at hperson
      cases hperson
    · exact hbesides (.inr ⟨p, hp, hsubject, hperson⟩)

theorem retention_scrubs (env : Env) {run : RetentionRun} (hclear : Clear s (.retention run)) :
    Scrubs (fun r => ¬(r ∈ s.rows.rows ∧ s.Held run.now r)) s (applyRetention env run s).1 := by
  apply applyRetention_scrubs
  rintro a days hget hdays htenantHold hcategoryHold r ⟨ref, href, hreach⟩ ⟨hr, hheld⟩
  have ha := registryGet_mem hget
  obtain ⟨q, hq, hqtenant, hqexpired, rfl, hqfree⟩ := mem_processable href
  have hqcategory : q.category = run.category := (expired_spec ha.1 hqexpired).1.trans ha.2
  have hqheld : ¬s.Held run.now q := by
    unfold Store.Held
    rw [hqtenant, hqcategory, htenantHold, hcategoryHold]
    rintro (h | h | ⟨p, hp, h⟩)
    · cases h
    · cases h
    · rw [hqfree p hp] at h
      cases h
  rcases hreach with hkey | ⟨htype, htenant, hvisit⟩
  · have hrq : r = q := s.rows.eq_of_key_eq hr hq hkey
    exact hqheld (hrq ▸ hheld)
  · have hpersons : run.category = .personRefInPastRecords := by
      rw [← hqcategory, Row.category, show q.resourceType = .persons from htype]
      rfl
    have hpos : 0 < days := by
      by_contra hle
      have hmem := (List.mem_filter.mp (mem_clip href)).1
      unfold Adapter.scanForExpired at hmem
      rw [if_pos (by omega)] at hmem
      cases hmem
    exact hclear hpersons r hr q hq (htenant.trans hqtenant) htype hvisit
      (RetentionRun.isDue_of_expired hget hdays hpos hqtenant hqexpired) hqheld hheld

theorem erasure_scrubs (env : Env) {input : FulfillErasureInput}
    (hclear : Clear s (.fulfillErasure input)) :
    Scrubs (fun r => ¬(r ∈ s.rows.rows ∧ s.Held input.now r)) s
      (fulfillErasureRequest env input s).1 := by
  apply fulfillErasureRequest_scrubs
  intro dsr hget _ hhold
  apply eraseAll_scrubs
  intro a ha p hp
  rcases eraseCategory_cases env input dsr.subjectPersonId p a with hsame | herase
  · rw [hsame]
    exact Scrubs.refl _ _
  rw [herase]
  cases hmode : erasureReaches input.hardDelete a.category with
  | false =>
    rw [erase_of_not_reaches ha env hmode input.now rfl]
    exact Scrubs.refl _ _
  | true =>
    refine (erase_scrubs ha env _ _ (erasureRefs_category ha) erasureRefs_tenant _).mono ?_
    rintro r hrp ⟨ref, href, hreach⟩ ⟨hr, hheld⟩
    obtain ⟨q, hq, hqtenant, hqbelongs, rfl⟩ := mem_erasureRefs href
    have hspec := belongsTo_spec ha hqbelongs
    rcases hreach with hkey | ⟨htype, htenant, hvisit⟩
    · obtain rfl : r = q := p.store.rows.eq_of_key_eq hrp hq hkey
      refine not_held_of_erasure (by rw [hqtenant]; exact hhold) ?_ hheld
      refine hclear dsr hget r hr hqtenant hspec.2.1 ?_ ?_
      · rw [← hp.users]
        exact hspec.2.2
      · rw [hspec.1]
        exact hmode
    · have hperson : q.id = dsr.subjectPersonId := by
        have hmem := hspec.2.2
        cases q with
        | person x => exact (List.mem_singleton.mp hmem).symm
        | visitor | auditEvent | notification | webhookEvent => cases htype
      have hvisitor : r.visitorOf = some dsr.subjectPersonId := hvisit.trans (congrArg some hperson)
      have hrtenant : r.tenantId = input.tenantId := htenant.trans hqtenant
      refine not_held_of_erasure (by rw [hrtenant]; exact hhold) ?_ hheld
      refine hclear dsr hget r hr hrtenant (Row.live_of_visitorOf hvisitor)
        (Row.visitorOf_mem_persons hvisitor) ?_
      have hcategory : a.category = .personRefInPastRecords := by
        rw [← hspec.1, Row.category, show q.resourceType = .persons from htype]
        rfl
      rw [hcategory] at hmode
      rw [Row.category, Row.resourceType_of_visitorOf hvisitor]
      exact hmode

variable {act : Act}

theorem clear_spares (env : Env) (hclear : Clear s act) : Spares env s act := by
  intro now hnow r hr hheld
  cases act with
  | retention run =>
    cases hnow
    exact (retention_scrubs env hclear).kept r hr fun h => h ⟨hr, hheld⟩
  | createErasure input =>
    exact (createErasureRequest_scrubs input s fun _ => False).kept r hr id
  | fulfillErasure input =>
    cases hnow
    exact (erasure_scrubs env hclear).kept r hr fun h => h ⟨hr, hheld⟩
  | placeHold | releaseHold | setRetention | application => cases hnow

/-! ## Rows that are due -/

/-- The live rows of the tenant and the category that are as old as `r`. -/
def Row.notYounger (r q : Row) : Bool :=
  q.live && q.tenantId == r.tenantId && q.category == r.category && decide (q.age ≤ r.age)

theorem Row.notYounger_bare (r q : Row) : r.notYounger q.bare = r.notYounger q := by
  simp [Row.notYounger, Row.category]

def Act.isNight (r : Row) : Act → Bool
  | .retention run => run.tenantId == r.tenantId && run.category == r.category
  | _ => false

/-- What a night needs in order to get nearer to `r`: while the row is live, it is due and free, and
fewer expired rows under a hold than the limit of the scan are as old. Rows do not change
otherwise. -/
def Reaching (r : Row) (s : Store) : Act → Prop
  | .retention run =>
      run.tenantId = r.tenantId → run.category = r.category →
        ∀ q ∈ s.rows.rows, key q = key r → q.live = true →
          run.isDue s q = true ∧ ¬s.Held run.now q ∧ run.heldAhead s q < scanLimit ∧
            run.failsAt = none ∧ run.dryRun = false
  | .application .. => False
  | _ => True

theorem step_onlyEnds (env : Env) (h : Reaching r s act) :
    OnlyEnds s.rows (step env s act).rows := by
  cases act with
  | retention run => exact (applyRetention_scrubs env run s fun _ _ _ _ _ _ _ _ => trivial).older
  | createErasure input => exact (createErasureRequest_scrubs input s fun _ => True).older
  | fulfillErasure input =>
    have hscrubs : Scrubs (fun _ => True) s (fulfillErasureRequest env input s).1 := by
      refine fulfillErasureRequest_scrubs env input s fun dsr _ _ _ => ?_
      refine eraseAll_scrubs fun a ha p _ => ?_
      rcases eraseCategory_cases env input dsr.subjectPersonId p a with hsame | herase
      · rw [hsame]
        exact Scrubs.refl (fun _ => True) p.store
      · rw [herase]
        exact (erase_scrubs ha env _ _ (erasureRefs_category ha) erasureRefs_tenant _).mono
          fun _ _ _ => trivial
    exact hscrubs.older
  | placeHold | releaseHold | setRetention => exact OnlyEnds.refl s.rows
  | application => cases h

theorem night_progress (env : Env) (hnight : act.isNight r = true)
    (h : Reaching r s act) {q : Row} (hq : q ∈ s.rows.rows) (hbare : q.bare = r.bare)
    (hlive : q.live = true) :
    (step env s act).rows.rows.countP r.notYounger < s.rows.rows.countP r.notYounger := by
  have hends := step_onlyEnds env h
  cases act with
  | retention run =>
    simp only [Act.isNight, Bool.and_eq_true, beq_iff_eq] at hnight
    have hkey : key q = key r := by rw [← Row.key_bare, hbare, Row.key_bare]
    have hage : q.age = r.age := by rw [← Row.age_bare, hbare, Row.age_bare]
    obtain ⟨hdue, hfree, hfew, hfails, hdry⟩ := h hnight.1 hnight.2 q hq hkey hlive
    obtain ⟨x, hx, hxtenant, hxcategory, hxlive, hxage, hxends⟩ :=
      applyRetention_progress env hq hdue hfree hfew hfails hdry
    refine hends.countP_lt r.notYounger_bare ?_ hx ?_ ?_
    · intro y hy
      simp only [Row.notYounger, Bool.and_eq_true] at hy
      exact hy.1.1.1
    · simp only [Row.notYounger, Bool.and_eq_true, beq_iff_eq, decide_eq_true_eq]
      exact ⟨⟨⟨hxlive, hxtenant.trans hnight.1⟩, hxcategory.trans hnight.2⟩, hage ▸ hxage⟩
    · intro y hy hykey
      by_cases htenant : y.tenantId = run.tenantId
      · simp [Row.notYounger, hxends y hy hykey htenant]
      · simp [Row.notYounger, ← hnight.1, htenant]
  | createErasure | fulfillErasure | placeHold | releaseHold | setRetention | application =>
    cases hnight

theorem ends_after_nights (env : Env) (r : Row) (acts : List Act) (s : Store)
    (hrow : ∀ q ∈ s.rows.rows, key q = key r → q.live = true → q.bare = r.bare)
    (h : Guarded (step env) (Reaching r) s acts)
    (hnights : s.rows.rows.countP r.notYounger ≤ acts.countP (·.isNight r)) :
    ∀ q ∈ (run (step env) s acts).rows.rows, key q = key r → q.live = false := by
  induction acts generalizing s with
  | nil =>
    intro q hq hkey
    apply Bool.eq_false_iff.mpr
    intro hlive
    have hbare := hrow q hq hkey hlive
    have hcount : 0 < s.rows.rows.countP r.notYounger := by
      refine List.countP_pos_iff.mpr ⟨q, hq, ?_⟩
      rw [← Row.notYounger_bare, hbare, Row.notYounger_bare]
      have hrlive : r.live = true := by rw [← Row.live_bare, ← hbare, Row.live_bare, hlive]
      simp [Row.notYounger, hrlive]
    rw [List.countP_nil] at hnights
    omega
  | cons act acts ih =>
    have hends := step_onlyEnds env h.1
    have hnotYounger : ∀ q, r.notYounger q = true → q.live = true := by
      intro q hq
      simp only [Row.notYounger, Bool.and_eq_true] at hq
      exact hq.1.1.1
    have hrow' : ∀ q ∈ (step env s act).rows.rows, key q = key r → q.live = true →
        q.bare = r.bare := by
      intro q hq hkey hlive
      obtain ⟨q₀, hq₀, hbare⟩ := hends q hq hlive
      rw [← hbare]
      refine hrow q₀ hq₀ ?_ ?_
      · rw [← Row.key_bare, hbare, Row.key_bare, hkey]
      · rw [← Row.live_bare, hbare, Row.live_bare, hlive]
    -- The row may have ended on the way, by an erasure for one.
    by_cases hlive : ∃ q ∈ s.rows.rows, key q = key r ∧ q.live = true
    · obtain ⟨q, hq, hkey, hlive⟩ := hlive
      have hle := hends.countP_le r.notYounger_bare hnotYounger
      refine ih _ hrow' h.2 ?_
      rw [List.countP_cons] at hnights
      cases hnight : act.isNight r with
      | true =>
        have hlt := night_progress env hnight h.1 hq (hrow q hq hkey hlive) hlive
        rw [hnight, if_pos rfl] at hnights
        omega
      | false =>
        rw [hnight, if_neg (by simp)] at hnights
        omega
    · have hdead : ∀ q ∈ s.rows.rows, key q = key r → q.live = false := by
        intro q hq hkey
        apply Bool.eq_false_iff.mpr
        intro hq'
        exact hlive ⟨q, hq, hkey, hq'⟩
      have hkeys : ∀ q : Row, key q.bare = key r ↔ key q = key r := fun q => by
        rw [Row.key_bare]
      have hguard : Guarded (step env) (Reaching r) s (act :: acts) := h
      exact Guarded.invariant (I := fun t => ∀ q ∈ t.rows.rows, key q = key r → q.live = false)
        (fun t b ht hb => (step_onlyEnds env hb).dead hkeys ht) hdead hguard

/-! ## The law -/

/-- In a run of clear steps no step changes a row that is under a hold, and a live row that every
night finds due, free and within the reach of the scan ends after finitely many of them. -/
theorem held_rows_stay_and_free_rows_end (env : Env) (s : Store) (acts : List Act) :
    (Guarded (step env) Clear s acts →
      ∀ pre act post, acts = pre ++ act :: post → Spares env (run (step env) s pre) act) ∧
    ∀ r ∈ s.rows.rows, Guarded (step env) (Reaching r) s acts →
      s.rows.rows.countP r.notYounger ≤ acts.countP (·.isNight r) →
      ∀ q ∈ (run (step env) s acts).rows.rows, key q = key r → q.live = false := by
  constructor
  · intro h pre act post hsplit
    exact clear_spares env (guarded_iff.mp h pre act post hsplit)
  · intro r hr h hnights
    refine ends_after_nights env r acts s ?_ h hnights
    intro q hq hkey _
    rw [s.rows.eq_of_key_eq hq hr hkey]

def byAge : ScanOrder where
  arrange rows := rows.insertionSort fun a b => a.age ≤ b.age
  arrange_perm rows := List.perm_insertionSort _ rows
  sorted rows := List.pairwise_insertionSort _ rows

/-! ## A category hold that an erasure does not see -/

def heldVisit : VisitorRow where
  id := 10
  tenantId := 7
  badgeId := some "B-1"
  personId := some 1
  hostPersonId := 2
  firstName := some "Ada"
  lastName := some "Byron"
  email := none
  phone := none
  company := none
  meetingRoomId := none
  notesForVisitor := none
  notesForReception := none
  status := .checkedOut
  visitDate := 19000
  expectedAt := none
  anonymizedAt := none
  unlinked := by simp

/-- Visitor records are on hold, and person 1 asks for erasure. -/
def storeOnHold : Store where
  rows := ⟨[.visitor heldVisit], by decide⟩
  users := []
  legalHolds := [⟨1, 7, .category .visitorRecords, none, none⟩]
  retentionDays _ _ := some 180
  anonymizationAudit := []
  requests := ⟨[⟨3, 7, 1, .inProgress⟩], by decide⟩

def asStored : RowOrder where
  arrange rows := rows
  arrange_perm _ := List.Perm.refl _

def erasureOfOne : FulfillErasureInput where
  tenantId := 7
  requestId := 3
  hardDelete := false
  now := 1700000000
  fault _ := .none
  order _ := asStored

/-- The visit is anonymized under the hold. -/
theorem category_hold_is_overlooked :
    ¬∀ env s acts, ∀ pre act post, acts = pre ++ act :: post →
      Spares env (run (step env) s pre) act := by
  intro h
  have hspares := h defaultEnv storeOnHold [.fulfillErasure erasureOfOne] [] _ [] rfl
  have hmem := hspares 1700000000 rfl (.visitor heldVisit) (by decide) (by decide)
  revert hmem
  decide +kernel

/-- The visit of person 1, and an older one whose host is under a hold. -/
def storeWithHeldHost : Store where
  rows := ⟨[.visitor { heldVisit with id := 11, hostPersonId := 9, visitDate := 18000 },
    .visitor heldVisit], by decide⟩
  users := []
  legalHolds := [⟨1, 7, .person 9, none, none⟩]
  retentionDays _ _ := some 180
  anonymizationAudit := []
  requests := ⟨[], by decide⟩

def nightOfVisits : RetentionRun where
  tenantId := 7
  category := .visitorRecords
  now := 1700000000
  maxRows := some 1
  dryRun := false
  order := byAge
  failsAt := none

/-- The night passes the older visit over and ends the other one. -/
theorem held_rows_stay_and_free_rows_end_one_night :
    (∀ q ∈ (run (step defaultEnv) storeWithHeldHost
        [.retention nightOfVisits, .retention nightOfVisits]).rows.rows,
      key q = (.visitors, 10) → q.live = false) ∧
    Spares defaultEnv storeWithHeldHost (.retention nightOfVisits) := by
  have hlaw := held_rows_stay_and_free_rows_end defaultEnv storeWithHeldHost
    [.retention nightOfVisits, .retention nightOfVisits]
  constructor
  · refine hlaw.2 (.visitor heldVisit) (by decide) ⟨?_, ?_, trivial⟩ (by decide)
    · intro _ _
      decide +kernel
    · intro _ _
      decide +kernel
  · refine hlaw.1 ⟨?_, ?_, trivial⟩ [] _ [.retention nightOfVisits] rfl
    · intro h
      cases h
    · intro h
      cases h

end Prequest.Privacy
