import Prequest.Lib.Sweep
import Prequest.Privacy.Scrubs
import Mathlib.Data.Int.Order.Basic

/-!
# Retention runs

`RetentionService.applyRetention` scans a category, drops what is under a hold, keeps
as much as the cap allows, and scrubs it chunk by chunk.

* `applyRetention_progress`: it ends a row that is as old as a given one, unless too many held
  rows are ahead.
-/

namespace Prequest.Privacy

open Prequest.Lib

/-! ## The run -/

/-- The arguments of a run, the order of its scan, and the chunk whose statement fails. -/
structure RetentionRun where
  tenantId : Uuid
  category : DataCategory
  now : Int
  maxRows : Option Int
  dryRun : Bool
  order : ScanOrder
  failsAt : Option Nat

/-- `RetentionApplyResult`. -/
structure RetentionApplyResult where
  scanned : Nat
  anonymized : Nat
  hardDeleted : Nat
  skippedHeld : Nat
  deferred : Nat
  dryRun : Bool
  deriving DecidableEq, Repr

inductive RetentionError where
  | retentionNotFound
  | chunkFailed
  deriving DecidableEq, Repr

/-- `refTouchesHeldPerson`. -/
def refTouchesHeldPerson (ref : EntityRef) (held : List Uuid) : Bool :=
  if held.isEmpty then false
  else if ref.resourceType == .persons && held.contains ref.resourceId then true
  else ref.subjectPersonIds.any fun p => held.contains p

def filterHeld (held : List Uuid) (expired : List EntityRef) : List EntityRef :=
  expired.filter fun ref => !refTouchesHeldPerson ref held

/-- `cap > 0 ? filtered.slice(0, cap) : filtered`. -/
def clip (cap : Int) (filtered : List EntityRef) : List EntityRef :=
  if 0 < cap then filtered.take cap.toNat else filtered

section

variable (env : Env) (run : RetentionRun)

def processable (a : Adapter) (days : Int) (s : Store) :
    List EntityRef :=
  clip (run.maxRows.getD env.nightlyCap)
    (filterHeld (s.heldPersonIds run.now run.tenantId)
      (a.scanForExpired run.order s run.tenantId days run.now))

def chunksDone (refs : List EntityRef) : List (List EntityRef) :=
  let chunks := batches env.chunkSize env.chunkSize_pos refs
  match run.failsAt with
  | some k => chunks.take k
  | none => chunks

/-- `applyRetention`. The chunks before a failure stay scrubbed. -/
def applyRetention (s : Store) :
    Store × Except RetentionError RetentionApplyResult :=
  match registryGet run.category with
  | none =>
      (s, .ok { scanned := 0, anonymized := 0, hardDeleted := 0, skippedHeld := 0, deferred := 0,
                dryRun := run.dryRun })
  | some a =>
      match s.retentionDays run.tenantId run.category with
      | none => (s, .error .retentionNotFound)
      | some days =>
          let expired := a.scanForExpired run.order s run.tenantId days run.now
          if s.hasTenantWideHold run.now run.tenantId ||
              s.hasCategoryHold run.now run.tenantId run.category then
            (s, .ok { scanned := expired.length, anonymized := 0, hardDeleted := 0,
                      skippedHeld := expired.length, deferred := 0, dryRun := run.dryRun })
          else
            let filtered := filterHeld (s.heldPersonIds run.now run.tenantId) expired
            let refs := processable env run a days s
            let skippedHeld := expired.length - filtered.length
            let deferred := filtered.length - refs.length
            if run.dryRun then
              (s, .ok { scanned := expired.length, anonymized := 0, hardDeleted := 0, skippedHeld,
                        deferred, dryRun := true })
            else
              let done := chunksDone env run refs
              let store := done.foldl (a.retain env run.now) s
              if done.flatten.length < refs.length then (store, .error .chunkFailed)
              else
                let isHardDelete := a.legalBasis == .none
                (store, .ok { scanned := expired.length
                              anonymized := if isHardDelete then 0 else refs.length
                              hardDeleted := if isHardDelete then refs.length else 0
                              skippedHeld
                              deferred
                              dryRun := false })

end

/-! ## What a run scrubs -/

variable {a : Adapter}

theorem registryGet_mem {category : DataCategory} (h : registryGet category = some a) :
    a ∈ registry ∧ a.category = category :=
  ⟨List.mem_of_find?_eq_some h, by simpa using List.find?_some h⟩

theorem refTouchesHeldPerson_scanRef (a : Adapter) (users : List UserRow) (held : List Uuid)
    (r : Row) :
    refTouchesHeldPerson (a.scanRef users r) held = (r.persons users).any fun p => held.contains p := by
  unfold refTouchesHeldPerson
  cases held with
  | nil => simp
  | cons h held =>
    cases r with
    | person p =>
      show (if (true && (h :: held).contains p.id) = true then true else false) = _
      simp [Row.persons]
    | visitor | auditEvent | notification | webhookEvent => rfl

variable {refs : List EntityRef} {ref : EntityRef}

theorem mem_clip {cap : Int} (h : ref ∈ clip cap refs) : ref ∈ refs := by
  unfold clip at h
  split at h
  · exact List.mem_of_mem_take h
  · exact h

variable {s : Store} {days : Int}

theorem mem_scanForExpired {order : ScanOrder} {tenantId : Uuid}
    {now : Int} (h : ref ∈ a.scanForExpired order s tenantId days now) :
    ∃ r ∈ s.rows.rows, r.tenantId = tenantId ∧ a.expired days now r = true ∧
      ref = a.scanRef s.users r := by
  unfold Adapter.scanForExpired at h
  split at h
  · cases h
  · obtain ⟨r, hr, rfl⟩ := List.mem_map.mp h
    have hsel := Store.mem_select.mp (List.mem_of_mem_take hr)
    simp only [Bool.and_eq_true, beq_iff_eq] at hsel
    exact ⟨r, hsel.1, hsel.2.1, hsel.2.2, rfl⟩

variable {env : Env} {run : RetentionRun}

theorem mem_processable (h : ref ∈ processable env run a days s) :
    ∃ r ∈ s.rows.rows, r.tenantId = run.tenantId ∧ a.expired days run.now r = true ∧
      ref = a.scanRef s.users r ∧
      ∀ p ∈ r.persons s.users, s.hasPersonHold run.now run.tenantId p = false := by
  obtain ⟨hscan, hfree⟩ := List.mem_filter.mp (mem_clip h)
  obtain ⟨r, hr, htenant, hexpired, rfl⟩ := mem_scanForExpired hscan
  refine ⟨r, hr, htenant, hexpired, rfl, ?_⟩
  rw [refTouchesHeldPerson_scanRef] at hfree
  intro p hp
  apply Bool.eq_false_iff.mpr
  intro hheld
  have hany : (r.persons s.users).any (fun p => (s.heldPersonIds run.now run.tenantId).contains p)
      = true := by
    refine List.any_eq_true.mpr ⟨p, hp, ?_⟩
    exact List.contains_iff_mem.mpr ((s.mem_heldPersonIds run.now run.tenantId).mpr hheld)
  rw [hany] at hfree
  cases hfree

theorem processable_category (ha : a ∈ registry) :
    ∀ ref ∈ processable env run a days s, ref.resourceType.category = a.category := by
  intro ref href
  obtain ⟨r, _, _, hexpired, rfl, _⟩ := mem_processable href
  exact (expired_spec ha hexpired).1

theorem processable_tenant : ∀ ref ∈ processable env run a days s, ref.tenantId = run.tenantId := by
  intro ref href
  obtain ⟨r, _, htenant, _, rfl, _⟩ := mem_processable href
  exact htenant

theorem mem_of_mem_chunksDone {chunk : List EntityRef}
    (hchunk : chunk ∈ chunksDone env run refs) (href : ref ∈ chunk) : ref ∈ refs := by
  unfold chunksDone at hchunk
  cases hfails : run.failsAt with
  | none =>
    rw [hfails] at hchunk
    exact mem_of_mem_batches hchunk href
  | some k =>
    rw [hfails] at hchunk
    exact mem_of_mem_batches (List.mem_of_mem_take hchunk) href

theorem applyRetention_cases (env : Env) (run : RetentionRun) (s : Store) :
    (applyRetention env run s).1 = s ∨
      ∃ a days, registryGet run.category = some a ∧
        s.retentionDays run.tenantId run.category = some days ∧
        s.hasTenantWideHold run.now run.tenantId = false ∧
        s.hasCategoryHold run.now run.tenantId run.category = false ∧
        (applyRetention env run s).1 =
          (chunksDone env run (processable env run a days s)).foldl (a.retain env run.now) s := by
  unfold applyRetention
  cases hget : registryGet run.category with
  | none => exact .inl rfl
  | some a =>
    cases hdays : s.retentionDays run.tenantId run.category with
    | none => exact .inl rfl
    | some days =>
      dsimp only
      split
      · exact .inl rfl
      · rename_i hholds
        simp only [Bool.or_eq_true, not_or, Bool.not_eq_true] at hholds
        split
        · exact .inl rfl
        · refine .inr ⟨a, days, rfl, rfl, hholds.1, hholds.2, ?_⟩
          split <;> rfl

theorem chunks_scrubs (ha : a ∈ registry) :
    ∀ chunk ∈ chunksDone env run (processable env run a days s), ∀ t,
      Scrubs (Row.ReachedBy (processable env run a days s)) t (a.retain env run.now t chunk) := by
  intro chunk hchunk t
  have hsub : chunk ⊆ processable env run a days s := fun ref href =>
    mem_of_mem_chunksDone hchunk href
  have hcategory : ∀ ref ∈ chunk, ref.resourceType.category = a.category :=
    fun ref href => processable_category ha ref (hsub href)
  have htenant : ∀ ref ∈ chunk, ref.tenantId = run.tenantId :=
    fun ref href => processable_tenant ref (hsub href)
  exact (retain_scrubs ha env hcategory htenant run.now t).mono fun r _ hr => hr.mono hsub

theorem applyRetention_scrubs (env : Env) (run : RetentionRun) (s : Store) {reached : Row → Prop}
    (hreached : ∀ a days, registryGet run.category = some a →
      s.retentionDays run.tenantId run.category = some days →
      s.hasTenantWideHold run.now run.tenantId = false →
      s.hasCategoryHold run.now run.tenantId run.category = false →
      ∀ r, r.ReachedBy (processable env run a days s) → reached r) :
    Scrubs reached s (applyRetention env run s).1 := by
  rcases applyRetention_cases env run s with h | ⟨a, days, hget, hdays, htenant, hcategory, h⟩
  · rw [h]
    exact Scrubs.refl reached s
  · rw [h]
    have ha := (registryGet_mem hget).1
    exact (Scrubs.foldl _ (chunks_scrubs ha) s).mono
      fun r _ => hreached a days hget hdays htenant hcategory r

/-! ## Progress -/

def RetentionRun.isDue (run : RetentionRun) (s : Store) (r : Row) : Bool :=
  match registryGet run.category, s.retentionDays run.tenantId run.category with
  | some a, some days => decide (0 < days) && r.tenantId == run.tenantId && a.expired days run.now r
  | _, _ => false

variable {r : Row}

theorem RetentionRun.isDue_spec (h : run.isDue s r = true) :
    ∃ a days, registryGet run.category = some a ∧
      s.retentionDays run.tenantId run.category = some days ∧ 0 < days ∧
      r.tenantId = run.tenantId ∧ a.expired days run.now r = true := by
  unfold RetentionRun.isDue at h
  split at h
  · rename_i a days hget hdays
    simp only [Bool.and_eq_true, decide_eq_true_eq, beq_iff_eq] at h
    exact ⟨a, days, hget, hdays, h.1.1, h.1.2, h.2⟩
  · cases h

theorem RetentionRun.isDue_of_expired (hget : registryGet run.category = some a)
    (hdays : s.retentionDays run.tenantId run.category = some days) (hpos : 0 < days)
    (htenant : r.tenantId = run.tenantId) (hexpired : a.expired days run.now r = true) :
    run.isDue s r = true := by
  simp [RetentionRun.isDue, hget, hdays, hpos, htenant, hexpired]

/-- The number of expired rows under a hold that are as old as a given one. -/
def RetentionRun.heldAhead (run : RetentionRun) (s : Store) (r : Row) : Nat :=
  s.rows.rows.countP fun q =>
    run.isDue s q && decide (s.Held run.now q) && decide (q.age ≤ r.age)

theorem held_iff_persons {now : Int} (htenant : s.hasTenantWideHold now r.tenantId = false)
    (hcategory : s.hasCategoryHold now r.tenantId r.category = false) :
    s.Held now r ↔
      ((r.persons s.users).any fun p => (s.heldPersonIds now r.tenantId).contains p) = true := by
  unfold Store.Held
  rw [htenant, hcategory]
  simp [Store.mem_heldPersonIds]

theorem exists_chunk (env : Env) (hfails : run.failsAt = none) (href : ref ∈ refs) :
    ∃ chunk ∈ chunksDone env run refs, ref ∈ chunk := by
  unfold chunksDone
  rw [hfails]
  rw [← batches_flatten env.chunkSize env.chunkSize_pos refs] at href
  exact List.mem_flatten.mp href

theorem head_mem_clip (cap : Int) (ref : EntityRef) (refs : List EntityRef) :
    ref ∈ clip cap (ref :: refs) := by
  unfold clip
  split
  · obtain ⟨n, hn⟩ : ∃ n, cap.toNat = n + 1 := ⟨cap.toNat - 1, by omega⟩
    rw [hn, List.take_succ_cons]
    exact List.mem_cons_self
  · exact List.mem_cons_self

theorem exists_processable (env : Env) (hget : registryGet run.category = some a)
    (hdays : s.retentionDays run.tenantId run.category = some days) (hpos : 0 < days)
    (hr : r ∈ s.rows.rows) (htenant : r.tenantId = run.tenantId)
    (hexpired : a.expired days run.now r = true) (hfree : ¬s.Held run.now r)
    (hfew : run.heldAhead s r < scanLimit) :
    ∃ q ∈ s.rows.rows, q.tenantId = run.tenantId ∧ a.expired days run.now q = true ∧
      q.age ≤ r.age ∧ a.scanRef s.users q ∈ processable env run a days s := by
  have ha := registryGet_mem hget
  have hcategory : ∀ q, a.expired days run.now q = true → q.category = run.category :=
    fun q hq => (expired_spec ha.1 hq).1.trans ha.2
  have hnone : s.hasTenantWideHold run.now run.tenantId = false ∧
      s.hasCategoryHold run.now run.tenantId run.category = false := by
    unfold Store.Held at hfree
    rw [htenant, hcategory r hexpired] at hfree
    simp only [not_or, Bool.not_eq_true] at hfree
    exact ⟨hfree.1, hfree.2.1⟩
  let held : Row → Bool := fun q =>
    (q.persons s.users).any fun p => (s.heldPersonIds run.now run.tenantId).contains p
  have hheld : ∀ q, q.tenantId = run.tenantId → a.expired days run.now q = true →
      (s.Held run.now q ↔ held q = true) := by
    intro q hq hexp
    rw [held_iff_persons (by rw [hq]; exact hnone.1) (by rw [hq, hcategory q hexp]; exact hnone.2), hq]
  let rows := s.select run.order.toRowOrder fun q =>
    q.tenantId == run.tenantId && a.expired days run.now q
  have hmem : ∀ q, q ∈ rows ↔ q ∈ s.rows.rows ∧ q.tenantId = run.tenantId ∧
      a.expired days run.now q = true := by
    intro q
    refine Store.mem_select.trans (and_congr_right fun _ => ?_)
    rw [Bool.and_eq_true, beq_iff_eq]
  have hcount : rows.countP (fun q => held q && decide (q.age ≤ r.age)) < scanLimit := by
    refine Nat.lt_of_le_of_lt ?_ hfew
    show (run.order.arrange _).countP _ ≤ _
    rw [(run.order.arrange_perm _).countP_eq, List.countP_filter]
    apply List.countP_mono_left
    intro q _ hq
    simp only [Bool.and_eq_true, beq_iff_eq, decide_eq_true_eq] at hq ⊢
    obtain ⟨⟨hq, hage⟩, htq, heq⟩ := hq
    exact ⟨⟨RetentionRun.isDue_of_expired hget hdays hpos htq heq, (hheld q htq heq).mpr hq⟩, hage⟩
  have hrfree : held r = false := by
    apply Bool.eq_false_iff.mpr
    intro h
    exact hfree ((hheld r htenant hexpired).mpr h)
  obtain ⟨q, rest, hhead, hage⟩ := @exists_head_not_held Row Int _ Row.age held rows
    (run.order.sorted _) r ((hmem r).mpr ⟨hr, htenant, hexpired⟩) hrfree scanLimit hcount
  have hq : q ∈ rows := by
    have : q ∈ (rows.take scanLimit).filter fun q => !held q := by
      rw [hhead]
      exact List.mem_cons_self
    exact List.mem_of_mem_take (List.mem_filter.mp this).1
  obtain ⟨hqmem, hqtenant, hqexpired⟩ := (hmem q).mp hq
  refine ⟨q, hqmem, hqtenant, hqexpired, hage, ?_⟩
  have hrefs : filterHeld (s.heldPersonIds run.now run.tenantId)
      (a.scanForExpired run.order s run.tenantId days run.now) =
        (q :: rest).map (a.scanRef s.users) := by
    unfold filterHeld Adapter.scanForExpired
    rw [if_neg (by omega), List.filter_map, ← hhead]
    congr 1
    apply List.filter_congr
    intro q' _
    show (!refTouchesHeldPerson (a.scanRef s.users q') _) = !held q'
    rw [refTouchesHeldPerson_scanRef]
  unfold processable
  rw [hrefs]
  exact head_mem_clip _ _ _

theorem applyRetention_progress (env : Env)
    (hr : r ∈ s.rows.rows) (hdue : run.isDue s r = true) (hfree : ¬s.Held run.now r)
    (hfew : run.heldAhead s r < scanLimit) (hfails : run.failsAt = none)
    (hdry : run.dryRun = false) :
    ∃ q ∈ s.rows.rows, q.tenantId = run.tenantId ∧ q.category = run.category ∧ q.live = true ∧
      q.age ≤ r.age ∧
      ∀ q' ∈ (applyRetention env run s).1.rows.rows, key q' = key q → q'.tenantId = run.tenantId →
        q'.live = false := by
  obtain ⟨a, days, hget, hdays, hpos, htenant, hexpired⟩ := RetentionRun.isDue_spec hdue
  obtain ⟨q, hq, hqtenant, hqexpired, hage, hmem⟩ :=
    exists_processable env hget hdays hpos hr htenant hexpired hfree hfew
  have ha := registryGet_mem hget
  have hspec := expired_spec ha.1 hqexpired
  have hcategory := (expired_spec ha.1 hexpired).1.trans ha.2
  refine ⟨q, hq, hqtenant, hspec.1.trans ha.2, hspec.2, hage, ?_⟩
  intro q' hq' hkey hq'tenant
  have hstore : (applyRetention env run s).1 =
      (chunksDone env run (processable env run a days s)).foldl (a.retain env run.now) s := by
    unfold Store.Held at hfree
    rw [htenant, hcategory] at hfree
    simp only [not_or, Bool.not_eq_true] at hfree
    unfold applyRetention
    simp only [hget, hdays, hfree.1, hfree.2.1, hdry]
    simp only [Bool.or_self, Bool.false_eq_true, if_false]
    split <;> rfl
  rw [hstore] at hq'
  obtain ⟨chunk, hchunk, href⟩ := exists_chunk env hfails hmem
  have hsub : chunk ⊆ processable env run a days s := fun ref h =>
    mem_of_mem_chunksDone hchunk h
  refine Scrubs.foldl_dead (Row.isAt_bare (key q) run.tenantId) (chunks_scrubs ha.1) hchunk ?_ s q' hq'
    ⟨hkey, hq'tenant⟩
  exact retain_ends env (fun ref h => processable_category ha.1 ref (hsub h))
    (fun ref h => processable_tenant ref (hsub h)) run.now href ha.1

end Prequest.Privacy
