import Prequest.Privacy.Scrubs

/-!
# Erasure requests

`DataSubjectService` takes a request for the erasure of a person in, and fulfils it by
asking every registered adapter for the rows of the person.

* `fulfillErasureRequest_scrubs`: what a fulfilment reaches.
-/

namespace Prequest.Privacy

open Prequest.Lib

/-! ## Intake -/

/-- `CreateErasureRequestInput`, with the id that the database gives to the request. -/
structure CreateErasureInput where
  tenantId : Uuid
  subjectPersonId : Uuid
  reasonLength : Nat
  requestId : Uuid
  now : Int
  deriving DecidableEq, Repr

inductive PrivacyError where
  | subjectNotFound
  | reasonRequired
  | dsrCreateFailed
  | dsrNotFound
  | dsrAlreadyDenied
  | dsrAlreadyCompleted
  deriving DecidableEq, Repr

/-- The hold that an erasure looks for: on the tenant, or on the subject. -/
def Store.erasureHold (s : Store) (now : Int) (tenantId personId : Uuid) : Bool :=
  s.hasTenantWideHold now tenantId || s.hasPersonHold now tenantId personId

/-- `select id from persons where tenant_id = $1 and id = $2`. -/
def Store.hasPerson (s : Store) (tenantId personId : Uuid) : Bool :=
  match s.rows.get? (.persons, personId) with
  | some r => r.tenantId == tenantId
  | none => false

/-- `createErasureRequest`. -/
def createErasureRequest (input : CreateErasureInput) (s : Store) :
    Store × Except PrivacyError DsrRow :=
  if s.hasPerson input.tenantId input.subjectPersonId then
    if input.reasonLength < 8 then (s, .error .reasonRequired)
    else
      let denied := s.erasureHold input.now input.tenantId input.subjectPersonId
      let dsr : DsrRow :=
        { id := input.requestId, tenantId := input.tenantId,
          subjectPersonId := input.subjectPersonId,
          status := if denied then .denied else .inProgress }
      match s.requests.insert? dsr with
      | some requests => ({ s with requests }, .ok dsr)
      | none => (s, .error .dsrCreateFailed)
  else (s, .error .subjectNotFound)

/-! ## Fulfilment -/

/-- What goes wrong in a category: nothing, the read of the rows, or their anonymization or
deletion. -/
inductive Fault where
  | none
  | refs
  | scrub
  deriving DecidableEq, Repr

/-- `FulfillErasureRequestInput`, with the faults of the categories and the orders of the reads. -/
structure FulfillErasureInput where
  tenantId : Uuid
  requestId : Uuid
  hardDelete : Bool
  now : Int
  fault : DataCategory → Fault
  order : DataCategory → RowOrder

/-- An entry of `breakdown`. -/
structure CategoryCounts where
  anonymized : Nat
  hardDeleted : Nat
  failed : Bool
  deriving DecidableEq, Repr

def CategoryCounts.total (c : CategoryCounts) : Nat := c.anonymized + c.hardDeleted

/-- The variables of the loop. -/
structure Progress where
  store : Store
  breakdown : DataCategory → Option CategoryCounts
  totalProcessed : Nat
  anyFailed : Bool

def Progress.note (p : Progress) (category : DataCategory) (store : Store) (counts : CategoryCounts) :
    Progress where
  store
  breakdown c := if c = category then some counts else p.breakdown c
  totalProcessed := p.totalProcessed + counts.total
  anyFailed := p.anyFailed || counts.failed

def Adapter.erasedByDelete (a : Adapter) (hardDelete : Bool) : Bool :=
  hardDelete && a.legalBasis != .legalObligation

def Adapter.erase (a : Adapter) (env : Env) (hardDelete : Bool) (now : Int) (refs : List EntityRef)
    (s : Store) : Store :=
  if a.erasedByDelete hardDelete then a.hardDelete refs s
  else a.anonymize env refs .erasureRequest now s

/-- One round of the loop. A failure leaves the category as it was. -/
def eraseCategory (env : Env) (input : FulfillErasureInput) (subject : Uuid) (p : Progress)
    (a : Adapter) : Progress :=
  match input.fault a.category with
  | .refs => p.note a.category p.store ⟨0, 0, true⟩
  | fault =>
      match a.erasureRefs (input.order a.category) p.store input.tenantId subject with
      | [] => p.note a.category p.store ⟨0, 0, false⟩
      | ref :: refs =>
          if fault = .scrub then p.note a.category p.store ⟨0, 0, true⟩
          else
            let refs := ref :: refs
            p.note a.category (a.erase env input.hardDelete input.now refs p.store)
              (if a.erasedByDelete input.hardDelete then ⟨0, refs.length, false⟩
                else ⟨refs.length, 0, false⟩)

/-- The snapshots that the fulfilment deletes at its end. -/
def Snapshot.purged (tenantId subject : Uuid) (x : Snapshot) : Bool :=
  x.tenantId == tenantId && x.reason == .erasureRequest && x.resourceType == .persons &&
    x.resourceId == subject

def setDsrStatus (status : DsrStatus) : Table.Assignment DsrRow where
  apply r := { r with status }
  key_apply _ := rfl

/-- `FulfillErasureResult`. -/
structure FulfillErasureResult where
  breakdown : DataCategory → Option CategoryCounts
  totalProcessed : Nat
  status : DsrStatus

def Store.setRequest (s : Store) (input : FulfillErasureInput) (status : DsrStatus) : Store :=
  { s with
    requests := s.requests.update
      (fun r => r.tenantId == input.tenantId && r.id == input.requestId) (setDsrStatus status) }

def eraseAll (env : Env) (input : FulfillErasureInput) (subject : Uuid) (s : Store) : Progress :=
  registry.foldl (eraseCategory env input subject) ⟨s, fun _ => none, 0, false⟩

/-- `fulfillErasureRequest`. -/
def fulfillErasureRequest (env : Env) (input : FulfillErasureInput) (s : Store) :
    Store × Except PrivacyError FulfillErasureResult :=
  match s.requests.get? input.requestId with
  | none => (s, .error .dsrNotFound)
  | some dsr =>
      if dsr.tenantId ≠ input.tenantId then (s, .error .dsrNotFound)
      else if dsr.status = .denied then (s, .error .dsrAlreadyDenied)
      else if dsr.status = .completed then (s, .error .dsrAlreadyCompleted)
      else if s.erasureHold input.now input.tenantId dsr.subjectPersonId then
        (s.setRequest input .denied,
          .ok { breakdown := fun _ => none, totalProcessed := 0, status := .partiallyDone })
      else
        let p := eraseAll env input dsr.subjectPersonId s
        let kept := p.store.anonymizationAudit.filter fun x =>
          !x.purged input.tenantId dsr.subjectPersonId
        let finalStatus := if p.anyFailed then .partiallyDone else .completed
        (({ p.store with anonymizationAudit := kept } : Store).setRequest input finalStatus,
          .ok { breakdown := p.breakdown
                totalProcessed := p.totalProcessed
                status := finalStatus })

/-! ## What a fulfilment reaches -/

variable {a : Adapter} {order : RowOrder} {s : Store} {tenantId personId : Uuid}
  {reached : Row → Prop} {input : FulfillErasureInput} {refs : List EntityRef}

theorem mem_erasureRows {r : Row} (h : r ∈ a.erasureRows order s tenantId personId) :
    r ∈ s.rows.rows ∧ r.tenantId = tenantId ∧ a.belongsTo s.users personId r = true := by
  have hsel : r ∈ s.select order fun r => r.tenantId == tenantId && a.belongsTo s.users personId r := by
    unfold Adapter.erasureRows at h
    split at h
    · exact List.mem_of_mem_take h
    · exact h
  have := Store.mem_select.mp hsel
  simp only [Bool.and_eq_true, beq_iff_eq] at this
  exact this

theorem mem_erasureRefs {ref : EntityRef} (h : ref ∈ a.erasureRefs order s tenantId personId) :
    ∃ r ∈ s.rows.rows, r.tenantId = tenantId ∧ a.belongsTo s.users personId r = true ∧
      ref = a.erasureRef r := by
  obtain ⟨r, hr, rfl⟩ := List.mem_map.mp h
  obtain ⟨hmem, htenant, hbelongs⟩ := mem_erasureRows hr
  exact ⟨r, hmem, htenant, hbelongs, rfl⟩

theorem erasureRefs_category (ha : a ∈ registry) :
    ∀ ref ∈ a.erasureRefs order s tenantId personId, ref.resourceType.category = a.category := by
  intro ref href
  obtain ⟨r, _, _, hbelongs, rfl⟩ := mem_erasureRefs href
  exact (belongsTo_spec ha hbelongs).1

theorem erasureRefs_tenant :
    ∀ ref ∈ a.erasureRefs order s tenantId personId, ref.tenantId = tenantId := by
  intro ref href
  obtain ⟨r, _, htenant, _, rfl⟩ := mem_erasureRefs href
  exact htenant

theorem erase_scrubs (ha : a ∈ registry) (env : Env) (hardDelete : Bool) (now : Int)
    (hrefs : ∀ ref ∈ refs, ref.resourceType.category = a.category)
    (htenant : ∀ ref ∈ refs, ref.tenantId = tenantId) (s : Store) :
    Scrubs (Row.ReachedBy refs) s (a.erase env hardDelete now refs s) := by
  unfold Adapter.erase
  split
  · exact hardDelete_scrubs ha hrefs s
  · exact anonymize_scrubs ha env hrefs now htenant .erasureRequest s

/-- The categories whose rows a request really scrubs: the others have an empty method for its
mode. -/
def erasureReaches (hardDelete : Bool) (category : DataCategory) : Bool :=
  match category with
  | .visitorRecords | .personRefInPastRecords => !hardDelete
  | .auditEvents => true
  | .emailNotifications => hardDelete
  | _ => false

theorem erase_of_not_reaches (ha : a ∈ registry) (env : Env) {hardDelete : Bool}
    (h : erasureReaches hardDelete a.category = false) (now : Int)
    (hrefs : refs = a.erasureRefs order s tenantId personId) :
    a.erase env hardDelete now refs s = s := by
  obtain rfl | rfl | rfl | rfl | rfl | ⟨c, b, rfl, hc⟩ := registry_cases ha
  · cases hardDelete with
    | true => rfl
    | false => cases h
  · cases hardDelete with
    | true => rfl
    | false => cases h
  · cases h
  · have hnil : refs = [] := by
      apply List.eq_nil_iff_forall_not_mem.mpr
      intro ref href
      obtain ⟨r, _, _, hbelongs, _⟩ := mem_erasureRefs (hrefs ▸ href)
      cases hbelongs
    rw [hnil]
    cases hardDelete <;> rfl
  · cases hardDelete with
    | true => cases h
    | false => rfl
  · unfold Adapter.erase
    split <;> rfl

theorem eraseCategory_cases (env : Env) (input : FulfillErasureInput) (subject : Uuid) (p : Progress)
    (a : Adapter) :
    (eraseCategory env input subject p a).store = p.store ∨
      (eraseCategory env input subject p a).store =
        a.erase env input.hardDelete input.now
          (a.erasureRefs (input.order a.category) p.store input.tenantId subject) p.store := by
  unfold eraseCategory
  cases input.fault a.category with
  | refs => exact .inl rfl
  | none =>
    cases hrefs : a.erasureRefs (input.order a.category) p.store input.tenantId subject with
    | nil => exact .inl rfl
    | cons ref refs => exact .inr rfl
  | scrub =>
    cases hrefs : a.erasureRefs (input.order a.category) p.store input.tenantId subject with
    | nil => exact .inl rfl
    | cons ref refs => exact .inl rfl

theorem foldl_eraseCategory_scrubs {env : Env} {subject : Uuid}
    (as : List Adapter) (hround : ∀ a ∈ as, ∀ p : Progress, Scrubs reached s p.store →
      Scrubs reached p.store (eraseCategory env input subject p a).store)
    (p : Progress) (hp : Scrubs reached s p.store) :
    Scrubs reached s (as.foldl (eraseCategory env input subject) p).store := by
  induction as generalizing p with
  | nil => exact hp
  | cons a as ih =>
    refine ih (fun b hb => hround b (List.mem_cons_of_mem a hb)) _ ?_
    exact hp.trans (hround a List.mem_cons_self p hp)

theorem eraseAll_scrubs {env : Env} {subject : Uuid}
    (hround : ∀ a ∈ registry, ∀ p : Progress, Scrubs reached s p.store →
      Scrubs reached p.store (eraseCategory env input subject p a).store) :
    Scrubs reached s (eraseAll env input subject s).store :=
  foldl_eraseCategory_scrubs registry hround _ (Scrubs.refl reached s)

theorem fulfillErasureRequest_scrubs (env : Env) (input : FulfillErasureInput) (s : Store)
    (hloop : ∀ dsr, s.requests.get? input.requestId = some dsr → dsr.tenantId = input.tenantId →
      s.erasureHold input.now input.tenantId dsr.subjectPersonId = false →
      Scrubs reached s (eraseAll env input dsr.subjectPersonId s).store) :
    Scrubs reached s (fulfillErasureRequest env input s).1 := by
  have hsame : Scrubs reached s (s.setRequest input .denied) :=
    ⟨rfl, rfl, rfl, fun _ hr _ => hr, fun r hr _ => ⟨r, hr, rfl⟩⟩
  unfold fulfillErasureRequest
  cases hget : s.requests.get? input.requestId with
  | none => exact Scrubs.refl reached s
  | some dsr =>
    dsimp only
    split
    · exact Scrubs.refl reached s
    rename_i htenant
    split
    · exact Scrubs.refl reached s
    split
    · exact Scrubs.refl reached s
    split
    · exact hsame
    rename_i hhold
    have h := hloop dsr hget (not_not.mp htenant) (Bool.eq_false_iff.mpr hhold)
    exact ⟨h.users, h.legalHolds, h.retentionDays, h.kept, h.older⟩

theorem createErasureRequest_scrubs (input : CreateErasureInput) (s : Store) (reached : Row → Prop) :
    Scrubs reached s (createErasureRequest input s).1 := by
  unfold createErasureRequest
  split
  · split
    · exact Scrubs.refl reached s
    · dsimp only
      split
      · exact ⟨rfl, rfl, rfl, fun _ hr _ => hr, fun r hr _ => ⟨r, hr, rfl⟩⟩
      · exact Scrubs.refl reached s
  · exact Scrubs.refl reached s

end Prequest.Privacy
