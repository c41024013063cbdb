import Prequest.Lib.Run
import Prequest.Lib.Table
import Mathlib.Logic.Function.Basic

/-!
# Publishing a policy

`PolicyStoreService` keeps the versions of a policy and a pointer to the published one. A publish is
three writes without a transaction: it archives the version that the entity pointed to, marks its
own version, and moves the pointer. Any number of calls run at once, one statement at a time.

* `policyLaw_of_orderly`: version numbers and the pointer are sound in every run, and one version is
  published in the end if every mark is written alone.
-/

namespace Prequest.Routing

open Prequest.Lib

inductive VersionStatus where
  | draft
  | published
  | archived
  deriving DecidableEq, Repr

variable {δ : Type}

/-- The columns of `config_versions` that do not change, with a definition of type `δ`. -/
structure PolicyVersion (δ : Type) where
  id : Nat
  configEntityId : Nat
  versionNumber : Nat
  definition : δ
  deriving DecidableEq

instance : Keyed (PolicyVersion δ) Nat where
  key := PolicyVersion.id

/-- `config_versions`, with its column `status` by id, and the column
`current_published_version_id` of `config_entities`. -/
structure PolicyDb (δ : Type) where
  versions : Table (PolicyVersion δ) := Table.empty
  status : Nat → VersionStatus := fun _ => .draft
  pointer : Nat → Option Nat := fun _ => none

structure PolicySchemas (δ : Type) where
  configType : Nat → Option String
  /-- `assertRoutingStudioType` and `parsePolicyDefinition`. -/
  parses : String → δ → Bool

def PolicySchemas.accepts (schemas : PolicySchemas δ) (entityId : Nat) (definition : δ) : Bool :=
  (schemas.configType entityId).any fun t => schemas.parses t definition

namespace PolicyDb

variable (db : PolicyDb δ)

def nextVersionNumber (entityId : Nat) : Nat :=
  ((db.versions.rows.filter fun v => v.configEntityId == entityId).map
    PolicyVersion.versionNumber).foldl max 0 + 1

/-- The insert of a draft, under the unique index on `(config_entity_id, version_number)`. -/
def insertDraft (v : PolicyVersion δ) : PolicyDb δ :=
  if db.versions.rows.any fun r =>
      r.configEntityId == v.configEntityId && r.versionNumber == v.versionNumber then db
  else match db.versions.insert? v with
    | some versions =>
        { db with versions := versions, status := Function.update db.status v.id .draft }
    | none => db

/-- The first write of a publish, if there is another version to archive. -/
def archiveOld (ver : PolicyVersion δ) (pointer : Option Nat) : PolicyDb δ :=
  { db with
    status := fun id =>
      if pointer = some id ∧ id ≠ ver.id then .archived else db.status id }

def markPublished (id : Nat) : PolicyDb δ :=
  { db with status := Function.update db.status id .published }

def point (entityId id : Nat) : PolicyDb δ :=
  { db with pointer := Function.update db.pointer entityId (some id) }

end PolicyDb

/-! ## The calls -/

/-- A call in progress, by the statement that comes next. -/
inductive PolicyCall (δ : Type) where
  /-- `nextVersionNumber` of `createDraftVersion`. -/
  | numbering (entityId : Nat) (definition : δ)
  | inserting (entityId : Nat) (definition : δ) (versionNumber : Nat)
  /-- `getEntity` of `publishVersion`. -/
  | loaded (ver : PolicyVersion δ)
  | archiving (ver : PolicyVersion δ) (pointer : Option Nat)
  | marking (ver : PolicyVersion δ) (pointer : Option Nat)
  | pointing (ver : PolicyVersion δ)

structure PolicyWorld (δ : Type) where
  db : PolicyDb δ := {}
  calls : Nat → Option (PolicyCall δ) := fun _ => none
  /-- The versions that some publish has marked. -/
  marked : List Nat := []
  /-- A publish of the entity was completed, and none has come to its writes since. -/
  completed : Nat → Bool := fun _ => false

inductive PolicyEvent (δ : Type) where
  | createDraftVersion (call entityId : Nat) (definition : δ)
  | publishVersion (call versionId : Nat)
  /-- The next statement of a call succeeds. An inserted row gets the id `uuid`. -/
  | next (call uuid : Nat)
  | fails (call : Nat)
  /-- The call ends where it is. -/
  | cut (call : Nat)

namespace PolicyWorld

variable (w : PolicyWorld δ) (k : Nat)

def become (call : PolicyCall δ) : PolicyWorld δ :=
  { w with calls := Function.update w.calls k (some call) }

def drop : PolicyWorld δ := { w with calls := Function.update w.calls k none }

def advance (schemas : PolicySchemas δ) (uuid : Nat) : PolicyCall δ → PolicyWorld δ
  | .numbering entityId definition =>
      w.become k (.inserting entityId definition (w.db.nextVersionNumber entityId))
  | .inserting entityId definition versionNumber =>
      { w with
        db := w.db.insertDraft ⟨uuid, entityId, versionNumber, definition⟩
        calls := Function.update w.calls k none }
  | .loaded ver =>
      if schemas.accepts ver.configEntityId ver.definition then
        w.become k (.archiving ver (w.db.pointer ver.configEntityId))
      else w.drop k
  | .archiving ver pointer =>
      { w with
        db := w.db.archiveOld ver pointer
        calls := Function.update w.calls k (some (.marking ver pointer))
        completed := Function.update w.completed ver.configEntityId false }
  | .marking ver _ =>
      { w with
        db := w.db.markPublished ver.id
        calls := Function.update w.calls k (some (.pointing ver))
        marked := ver.id :: w.marked
        completed := Function.update w.completed ver.configEntityId false }
  | .pointing ver =>
      { w with
        db := w.db.point ver.configEntityId ver.id
        calls := Function.update w.calls k none
        completed := Function.update w.completed ver.configEntityId true }

def step (schemas : PolicySchemas δ) (w : PolicyWorld δ) : PolicyEvent δ → PolicyWorld δ
  | .createDraftVersion k entityId definition =>
      if (w.calls k).isNone && schemas.accepts entityId definition then
        w.become k (.numbering entityId definition)
      else w
  | .publishVersion k versionId =>
      match w.calls k, w.db.versions.get? versionId with
      | none, some ver => if w.db.status ver.id = .draft then w.become k (.loaded ver) else w
      | _, _ => w
  | .next k uuid =>
      match w.calls k with
      | some call => w.advance k schemas uuid call
      | none => w
  | .fails k =>
      match w.calls k with
      -- The error of this write is not looked at.
      | some (.archiving ver pointer) => w.become k (.marking ver pointer)
      | _ => w.drop k
  | .cut k => w.drop k

end PolicyWorld

/-! ## The law -/

def NumbersUnique (db : PolicyDb δ) : Prop :=
  ∀ v ∈ db.versions.rows, ∀ v' ∈ db.versions.rows, v.configEntityId = v'.configEntityId →
    v.versionNumber = v'.versionNumber → v = v'

def PointsToMarked (schemas : PolicySchemas δ) (w : PolicyWorld δ) : Prop :=
  ∀ e id, w.db.pointer e = some id → id ∈ w.marked ∧ ∃ v ∈ w.db.versions.rows,
    v.id = id ∧ v.configEntityId = e ∧ schemas.accepts e v.definition = true

def OnlyPublished (db : PolicyDb δ) (e id : Nat) : Prop :=
  ∀ v ∈ db.versions.rows, v.configEntityId = e → (db.status v.id = .published ↔ v.id = id)

/-- After a publish was completed, and as long as no other one comes to its writes, the entity
points to its only published version. -/
def Healed (w : PolicyWorld δ) : Prop :=
  ∀ e, w.completed e = true → ∃ id, w.db.pointer e = some id ∧ OnlyPublished w.db e id

structure PolicyLaw (schemas : PolicySchemas δ) (w : PolicyWorld δ) : Prop where
  numbers : NumbersUnique w.db
  pointer : PointsToMarked schemas w
  healed : Healed w

/-! ## The condition -/

/-- A publish that marks its version now has archived the one that it read as the current one, the
pointer is still there, and no other publish is between its mark and its pointer, or was cut
there. -/
structure MarksAlone (db : PolicyDb δ) (ver : PolicyVersion δ) (pointer : Option Nat) : Prop where
  archived : ∀ id, pointer = some id → id = ver.id ∨ db.status id ≠ .published
  unmoved : db.pointer ver.configEntityId = pointer ∨ db.pointer ver.configEntityId = some ver.id
  settled : ∀ v ∈ db.versions.rows, v.configEntityId = ver.configEntityId →
    db.status v.id = .published → v.id = ver.id ∨ db.pointer v.configEntityId = some v.id

def ArchivesAlone (w : PolicyWorld δ) (ver : PolicyVersion δ) (pointer : Option Nat) : Prop :=
  ∀ id, pointer = some id → id = ver.id ∨
    ∀ k ver', w.calls k = some (.pointing ver') → ver'.id ≠ id

def Orderly (w : PolicyWorld δ) : PolicyEvent δ → Prop
  | .next k _ =>
      match w.calls k with
      | some (.archiving ver pointer) => ArchivesAlone w ver pointer
      | some (.marking ver pointer) => MarksAlone w.db ver pointer
      | _ => True
  | _ => True

/-! ## The invariant -/

/-- A publish may mark this version. -/
def Accepted (schemas : PolicySchemas δ) (db : PolicyDb δ) (ver : PolicyVersion δ) : Prop :=
  ver ∈ db.versions.rows ∧ schemas.accepts ver.configEntityId ver.definition = true

/-- What a call has read and checked still holds, statuses and pointers apart. -/
def PolicyCall.Sound (schemas : PolicySchemas δ) (db : PolicyDb δ) (marked : List Nat) :
    PolicyCall δ → Prop
  | .numbering .. | .inserting .. => True
  | .loaded ver => ver ∈ db.versions.rows
  | .archiving ver pointer => Accepted schemas db ver ∧ ∀ id, pointer = some id →
      ∃ v ∈ db.versions.rows, v.id = id ∧ v.configEntityId = ver.configEntityId
  | .marking ver _ => Accepted schemas db ver
  | .pointing ver => Accepted schemas db ver ∧ ver.id ∈ marked

/-- The invariant of every run, and that of a run which is `orderly`. -/
structure Inv (schemas : PolicySchemas δ) (orderly : Prop) (w : PolicyWorld δ) : Prop where
  numbers : NumbersUnique w.db
  pointer : PointsToMarked schemas w
  calls : ∀ k call, w.calls k = some call → call.Sound schemas w.db w.marked
  pointing : orderly → ∀ k ver, w.calls k = some (.pointing ver) →
    OnlyPublished w.db ver.configEntityId ver.id
  healed : orderly → Healed w

section

variable {schemas : PolicySchemas δ} {orderly : Prop} {db db' : PolicyDb δ} {w : PolicyWorld δ}
  {ver v : PolicyVersion δ} {call : PolicyCall δ} {next : Option (PolicyCall δ)}
  {marked marked' : List Nat} {k j e id uuid : Nat} {pointer : Option Nat}

theorem insertDraft_cases (db : PolicyDb δ) (v : PolicyVersion δ) :
    db.insertDraft v = db ∨ ∃ versions, db.insertDraft v =
        { db with versions := versions, status := Function.update db.status v.id .draft } ∧
      versions.rows = db.versions.rows ++ [v] ∧ (∀ r ∈ db.versions.rows, r.id ≠ v.id) ∧
      ∀ r ∈ db.versions.rows, r.configEntityId = v.configEntityId →
        r.versionNumber ≠ v.versionNumber := by
  unfold PolicyDb.insertDraft
  split
  · exact .inl rfl
  · rename_i hfree
    cases hinsert : db.versions.insert? v with
    | none => exact .inl rfl
    | some versions =>
      obtain ⟨hrows, hid⟩ := Table.insert?_eq_some hinsert
      refine .inr ⟨versions, rfl, hrows, Table.get?_eq_none.mp hid, ?_⟩
      intro r hr hentity hnumber
      exact hfree (List.any_eq_true.mpr ⟨r, hr, by simp [hentity, hnumber]⟩)

theorem PolicyCall.Sound.mono (h : call.Sound schemas db marked)
    (hrows : db.versions.rows ⊆ db'.versions.rows) (hmarked : marked ⊆ marked') :
    call.Sound schemas db' marked' := by
  cases call with
  | numbering => trivial
  | inserting => trivial
  | loaded ver => exact hrows h
  | archiving ver pointer =>
    refine ⟨⟨hrows h.1.1, h.1.2⟩, fun id hid => ?_⟩
    obtain ⟨v, hv, hof⟩ := h.2 id hid
    exact ⟨v, hrows hv, hof⟩
  | marking ver pointer => exact ⟨hrows h.1, h.2⟩
  | pointing ver => exact ⟨⟨hrows h.1.1, h.1.2⟩, hmarked h.2⟩

theorem calls_update (h : Function.update w.calls k next j = some call) :
    next = some call ∨ w.calls j = some call := by
  by_cases hj : j = k
  · subst hj
    rw [Function.update_self] at h
    exact .inl h
  · rw [Function.update_of_ne hj] at h
    exact .inr h

/-! ## The writes -/

theorem OnlyPublished.insertDraft (h : OnlyPublished db e id)
    (hid : ∃ r ∈ db.versions.rows, r.id = id) : OnlyPublished (db.insertDraft v) e id := by
  rcases insertDraft_cases db v with hsame | ⟨versions, hins, hrows, hfresh, _⟩
  · rwa [hsame]
  · rw [hins]
    intro r hr hentity
    show Function.update db.status v.id .draft r.id = _ ↔ _
    rcases List.mem_append.mp (hrows ▸ hr) with hr | hr
    · rw [Function.update_of_ne (hfresh r hr)]
      exact h r hr hentity
    · obtain rfl := List.mem_singleton.mp hr
      obtain ⟨s, hs, rfl⟩ := hid
      rw [Function.update_self]
      exact iff_of_false (by decide) (hfresh s hs).symm

theorem OnlyPublished.archiveOld (h : OnlyPublished db e id)
    (hne : pointer = some id → id = ver.id) : OnlyPublished (db.archiveOld ver pointer) e id := by
  intro v hv hentity
  show (if pointer = some v.id ∧ v.id ≠ ver.id then _ else db.status v.id) = _ ↔ _
  split
  · rename_i hold
    refine iff_of_false (by decide) ?_
    rintro rfl
    exact hold.2 (hne hold.1)
  · exact h v hv hentity

theorem OnlyPublished.mark_other (h : OnlyPublished db e id) (hver : ver ∈ db.versions.rows)
    (hne : ver.configEntityId ≠ e) : OnlyPublished (db.markPublished ver.id) e id := by
  intro v hv hentity
  have hvid : v.id ≠ ver.id := by
    intro hid
    obtain rfl := db.versions.eq_of_key_eq hv hver hid
    exact hne hentity
  show Function.update db.status ver.id .published v.id = _ ↔ _
  rw [Function.update_of_ne hvid]
  exact h v hv hentity

theorem MarksAlone.eq (h : MarksAlone db ver pointer) (hv : v ∈ db.versions.rows)
    (hentity : v.configEntityId = ver.configEntityId) (hpublished : db.status v.id = .published) :
    v.id = ver.id := by
  rcases h.settled v hv hentity hpublished with hid | hpointed
  · exact hid
  rw [hentity] at hpointed
  rcases h.unmoved with hsame | hown
  · rcases h.archived v.id (hsame.symm.trans hpointed) with hid | hold
    · exact hid
    · exact absurd hpublished hold
  · exact Option.some.inj (hpointed.symm.trans hown)

theorem MarksAlone.onlyPublished (h : MarksAlone db ver pointer) :
    OnlyPublished (db.markPublished ver.id) ver.configEntityId ver.id := by
  intro v hv hentity
  show Function.update db.status ver.id .published v.id = _ ↔ _
  by_cases hvid : v.id = ver.id
  · rw [hvid, Function.update_self]
    exact iff_of_true rfl rfl
  · rw [Function.update_of_ne hvid]
    exact iff_of_false (fun hpublished => hvid (h.eq hv hentity hpublished)) hvid

/-! ## The steps -/

theorem Inv.move {w' : PolicyWorld δ} (h : Inv schemas orderly w)
    (hcalls : w'.calls = Function.update w.calls k next)
    (hrows : w.db.versions.rows ⊆ w'.db.versions.rows) (hmarked : w.marked ⊆ w'.marked)
    (hnumbers : NumbersUnique w'.db) (hpointer : PointsToMarked schemas w')
    (hnext : ∀ call, next = some call → call.Sound schemas w'.db w'.marked)
    (hpointing : orderly → ∀ ver, (next = some (.pointing ver) ∨
      ∃ j, w.calls j = some (.pointing ver) ∧ OnlyPublished w.db ver.configEntityId ver.id) →
        OnlyPublished w'.db ver.configEntityId ver.id)
    (hhealed : orderly → Healed w') : Inv schemas orderly w' := by
  refine ⟨hnumbers, hpointer, fun j call hcall => ?_, fun ho j ver hcall => ?_, hhealed⟩
  · rcases calls_update (hcalls ▸ hcall) with hnew | hold
    · exact hnext call hnew
    · exact (h.calls j call hold).mono hrows hmarked
  · exact hpointing ho ver ((calls_update (hcalls ▸ hcall)).imp_right fun hold =>
      ⟨j, hold, h.pointing ho j ver hold⟩)

theorem Inv.become (h : Inv schemas orderly w) (hsound : call.Sound schemas w.db w.marked)
    (hpointing : ∀ ver, call ≠ .pointing ver) : Inv schemas orderly (w.become k call) := by
  refine h.move rfl (List.Subset.refl _) (List.Subset.refl _) h.numbers h.pointer
    (fun _ hnext => ?_) (fun ho ver hver => ?_) h.healed
  · obtain rfl := Option.some.inj hnext
    exact hsound
  · rcases hver with hnew | ⟨_, _, honly⟩
    · exact absurd (Option.some.inj hnew) (hpointing ver)
    · exact honly

theorem Inv.drop (h : Inv schemas orderly w) : Inv schemas orderly (w.drop k) := by
  refine h.move rfl (List.Subset.refl _) (List.Subset.refl _) h.numbers h.pointer
    (fun _ hnone => by cases hnone) (fun ho ver hver => ?_) h.healed
  rcases hver with hnone | ⟨_, _, honly⟩
  · cases hnone
  · exact honly

theorem Inv.insertDraft (h : Inv schemas orderly w) :
    Inv schemas orderly
      { w with db := w.db.insertDraft v, calls := Function.update w.calls k none } := by
  rcases insertDraft_cases w.db v with hsame | ⟨versions, hins, hrows, _, hfree⟩
  · rw [hsame]
    exact h.drop
  have hsubset : w.db.versions.rows ⊆ versions.rows := fun r hr =>
    hrows ▸ List.mem_append_left _ hr
  have honly : ∀ {e id}, OnlyPublished w.db e id → (∃ r ∈ w.db.versions.rows, r.id = id) →
      OnlyPublished (w.db.insertDraft v) e id := OnlyPublished.insertDraft
  rw [hins] at honly ⊢
  refine h.move rfl hsubset (List.Subset.refl _) ?_ (fun e id hid => ?_)
    (fun _ hnone => by cases hnone) (fun ho ver hver => ?_) fun ho e he => ?_
  · intro r hr r' hr' hentity hnumber
    rcases List.mem_append.mp (hrows ▸ hr) with hold | hlast <;>
      rcases List.mem_append.mp (hrows ▸ hr') with hold' | hlast'
    · exact h.numbers r hold r' hold' hentity hnumber
    · obtain rfl := List.mem_singleton.mp hlast'
      exact absurd hnumber (hfree r hold hentity)
    · obtain rfl := List.mem_singleton.mp hlast
      exact absurd hnumber.symm (hfree r' hold' hentity.symm)
    · rw [List.mem_singleton.mp hlast, List.mem_singleton.mp hlast']
  · obtain ⟨hmarked, r, hr, hof⟩ := h.pointer e id hid
    exact ⟨hmarked, r, hsubset hr, hof⟩
  · rcases hver with hnone | ⟨j, hj, hpublished⟩
    · cases hnone
    · exact honly hpublished ⟨ver, (h.calls j _ hj).1.1, rfl⟩
  · obtain ⟨id, hid, hpublished⟩ := h.healed ho e he
    obtain ⟨_, r, hr, hrid, _⟩ := h.pointer e id hid
    exact ⟨id, hid, honly hpublished ⟨r, hr, hrid⟩⟩

theorem completed_of_update {completed : Nat → Bool} {a : Nat}
    (h : Function.update completed a false e = true) : a ≠ e ∧ completed e = true := by
  have hne : e ≠ a := by
    rintro rfl
    rw [Function.update_self] at h
    cases h
  rw [Function.update_of_ne hne] at h
  exact ⟨hne.symm, h⟩

theorem Inv.archiveOld (h : Inv schemas orderly w) (hcall : w.calls k = some (.archiving ver pointer))
    (halone : orderly → ArchivesAlone w ver pointer) :
    Inv schemas orderly (w.advance k schemas uuid (.archiving ver pointer)) := by
  obtain ⟨haccepted, hread⟩ := h.calls k _ hcall
  refine h.move rfl (List.Subset.refl _) (List.Subset.refl _) h.numbers h.pointer
    (fun _ hnext => ?_) (fun ho ver' hver => ?_) fun ho e he => ?_
  · obtain rfl := Option.some.inj hnext
    exact haccepted
  · rcases hver with hnew | ⟨j, hj, honly⟩
    · cases hnew
    · refine honly.archiveOld fun hpointer => ?_
      exact (halone ho ver'.id hpointer).resolve_right fun hother => hother j ver' hj rfl
  · obtain ⟨hentity, he⟩ := completed_of_update he
    obtain ⟨id, hid, honly⟩ := h.healed ho e he
    refine ⟨id, hid, honly.archiveOld fun hpointer => ?_⟩
    -- The version that was read as the current one is of another entity.
    obtain ⟨v, hv, hvid, hof⟩ := hread id hpointer
    obtain ⟨_, v', hv', hvid', hof', _⟩ := h.pointer e id hid
    obtain rfl := w.db.versions.eq_of_key_eq hv hv' (hvid.trans hvid'.symm)
    exact absurd (hof.symm.trans hof') hentity

theorem Inv.markPublished (h : Inv schemas orderly w)
    (hcall : w.calls k = some (.marking ver pointer))
    (halone : orderly → MarksAlone w.db ver pointer) :
    Inv schemas orderly (w.advance k schemas uuid (.marking ver pointer)) := by
  have haccepted := h.calls k _ hcall
  refine h.move rfl (List.Subset.refl _) (List.subset_cons_self _ _) h.numbers (fun e id hid => ?_)
    (fun _ hnext => ?_) (fun ho ver' hver => ?_) fun ho e he => ?_
  · obtain ⟨hmarked, hof⟩ := h.pointer e id hid
    exact ⟨List.mem_cons_of_mem _ hmarked, hof⟩
  · obtain rfl := Option.some.inj hnext
    exact ⟨haccepted, List.mem_cons_self⟩
  · rcases hver with hnew | ⟨j, hj, honly⟩
    · cases hnew
      exact (halone ho).onlyPublished
    · by_cases hentity : ver.configEntityId = ver'.configEntityId
      · have hver' := (h.calls j _ hj).1.1
        rw [(halone ho).eq hver' hentity.symm ((honly ver' hver' rfl).mpr rfl), ← hentity]
        exact (halone ho).onlyPublished
      · exact honly.mark_other haccepted.1 hentity
  · obtain ⟨hentity, he⟩ := completed_of_update he
    obtain ⟨id, hid, honly⟩ := h.healed ho e he
    exact ⟨id, hid, honly.mark_other haccepted.1 hentity⟩

theorem Inv.point (h : Inv schemas orderly w) (hcall : w.calls k = some (.pointing ver)) :
    Inv schemas orderly (w.advance k schemas uuid (.pointing ver)) := by
  obtain ⟨⟨hver, haccepts⟩, hmarked⟩ := h.calls k _ hcall
  have hown : (w.db.point ver.configEntityId ver.id).pointer ver.configEntityId = some ver.id :=
    Function.update_self ..
  have hother : ∀ e, e ≠ ver.configEntityId →
      (w.db.point ver.configEntityId ver.id).pointer e = w.db.pointer e := fun e he =>
    Function.update_of_ne he ..
  refine h.move rfl (List.Subset.refl _) (List.Subset.refl _) h.numbers (fun e id hid => ?_)
    (fun _ hnone => by cases hnone) (fun ho ver' hver' => ?_) fun ho e he => ?_
  · by_cases hentity : e = ver.configEntityId
    · subst hentity
      obtain rfl := Option.some.inj (hown.symm.trans hid)
      exact ⟨hmarked, ver, hver, rfl, rfl, haccepts⟩
    · exact h.pointer e id ((hother e hentity).symm.trans hid)
  · rcases hver' with hnone | ⟨_, _, honly⟩
    · cases hnone
    · exact honly
  · by_cases hentity : e = ver.configEntityId
    · subst hentity
      exact ⟨ver.id, hown, h.pointing ho k ver hcall⟩
    · obtain ⟨id, hid, honly⟩ := h.healed ho e ((Function.update_of_ne hentity ..).symm.trans he)
      exact ⟨id, (hother e hentity).trans hid, honly⟩

theorem Inv.advance (h : Inv schemas orderly w) (hcall : w.calls k = some call)
    (ho : orderly → Orderly w (.next k uuid)) :
    Inv schemas orderly (w.advance k schemas uuid call) := by
  simp only [Orderly, hcall] at ho
  cases call with
  | numbering e definition => exact h.become trivial fun _ hver => by cases hver
  | inserting e definition number => exact h.insertDraft
  | loaded ver =>
    by_cases haccepts : schemas.accepts ver.configEntityId ver.definition = true
    · simp only [PolicyWorld.advance, if_pos haccepts]
      refine h.become ⟨⟨h.calls k _ hcall, haccepts⟩, fun id hid => ?_⟩ fun _ hver => by cases hver
      obtain ⟨_, v, hv, hvid, hentity, _⟩ := h.pointer _ id hid
      exact ⟨v, hv, hvid, hentity⟩
    · simp only [PolicyWorld.advance, if_neg haccepts]
      exact h.drop
  | archiving ver pointer => exact h.archiveOld hcall ho
  | marking ver pointer => exact h.markPublished hcall ho
  | pointing ver => exact h.point hcall

theorem Inv.step (h : Inv schemas orderly w) (event : PolicyEvent δ)
    (ho : orderly → Orderly w event) : Inv schemas orderly (PolicyWorld.step schemas w event) := by
  cases event with
  | createDraftVersion k entityId definition =>
    simp only [PolicyWorld.step]
    split
    · exact h.become trivial fun _ hver => by cases hver
    · exact h
  | publishVersion k versionId =>
    simp only [PolicyWorld.step]
    split
    · rename_i hver
      split
      · exact h.become (Table.get?_eq_some.mp hver).1 fun _ hver => by cases hver
      · exact h
    · exact h
  | next k uuid =>
    cases hcall : w.calls k with
    | none =>
      simp only [PolicyWorld.step, hcall]
      exact h
    | some call =>
      simp only [PolicyWorld.step, hcall]
      exact h.advance hcall ho
  | fails k =>
    simp only [PolicyWorld.step]
    split
    · rename_i hcall
      exact h.become (h.calls k _ hcall).1 fun _ hver => by cases hver
    · exact h.drop
  | cut k => exact h.drop

end

/-- The law, in every run from the start: numbers and pointers whatever happens, and the rest when
every publish writes alone. -/
theorem policyLaw_of_orderly (schemas : PolicySchemas δ) (events : List (PolicyEvent δ)) :
    (NumbersUnique (run (PolicyWorld.step schemas) {} events).db ∧
      PointsToMarked schemas (run (PolicyWorld.step schemas) {} events)) ∧
    (Guarded (PolicyWorld.step schemas) Orderly {} events →
      PolicyLaw schemas (run (PolicyWorld.step schemas) {} events)) := by
  have hstart : ∀ orderly, Inv schemas orderly ({} : PolicyWorld δ) := by
    intro orderly
    refine ⟨?_, ?_, ?_, ?_, ?_⟩
    · exact fun v hv => absurd hv List.not_mem_nil
    · exact fun e id hid => by cases hid
    · exact fun k call hcall => by cases hcall
    · exact fun _ k ver hcall => by cases hcall
    · exact fun _ e he => by cases he
  constructor
  · have h := run_invariant (fun w event (hw : Inv schemas False w) => hw.step event False.elim)
      (hstart False) events
    exact ⟨h.numbers, h.pointer⟩
  · intro hguarded
    have h := hguarded.invariant
      (fun w event (hw : Inv schemas True w) ho => hw.step event fun _ => ho) (hstart True)
    exact ⟨h.numbers, h.pointer, h.healed trivial⟩

/-! ## Two publishes -/

def anyPolicy : PolicySchemas Unit where
  configType := fun _ => some "space_levels"
  parses := fun _ _ => true

/-- Two drafts of one entity, published one after the other. -/
def publishTwice : List (PolicyEvent Unit) :=
  [.createDraftVersion 0 7 (), .next 0 0, .next 0 1, .createDraftVersion 0 7 (), .next 0 0, .next 0 2,
    .publishVersion 0 1, .next 0 0, .next 0 0, .next 0 0, .next 0 0,
    .publishVersion 0 2, .next 0 0, .next 0 0, .next 0 0, .next 0 0]

/-- The second publish archives what the first one has left. -/
theorem policyLaw_publishTwice :
    PolicyLaw anyPolicy (run (PolicyWorld.step anyPolicy) {} publishTwice) ∧
      (run (PolicyWorld.step anyPolicy) {} publishTwice).completed 7 = true ∧
      (run (PolicyWorld.step anyPolicy) {} publishTwice).db.pointer 7 = some 2 := by
  refine ⟨(policyLaw_of_orderly anyPolicy publishTwice).2 ?_, by decide, by decide⟩
  refine ⟨trivial, trivial, trivial, trivial, trivial, trivial, trivial, trivial, ?_, ?_, trivial,
    trivial, trivial, ?_, ?_, trivial, trivial⟩
  · intro id hid
    cases hid
  · refine ⟨fun id hid => ?_, .inl rfl, by decide⟩
    cases hid
  · intro id _
    refine .inr fun k ver' hcall => ?_
    cases k with
    | zero => cases hcall
    | succ k => cases hcall
  · refine ⟨fun id hid => ?_, .inl rfl, by decide⟩
    cases hid
    exact .inr (by decide)

/-- The publish of the first is cut between its mark and its pointer, and that of the second is
completed. -/
def cutThenPublish : List (PolicyEvent Unit) :=
  [.createDraftVersion 0 7 (), .next 0 0, .next 0 1, .createDraftVersion 0 7 (), .next 0 0, .next 0 2,
    .publishVersion 0 1, .next 0 0, .next 0 0, .next 0 0, .cut 0,
    .publishVersion 0 2, .next 0 0, .next 0 0, .next 0 0, .next 0 0]

/-- Both versions stay published. -/
theorem cutThenPublish_notHealed :
    ¬PolicyLaw anyPolicy (run (PolicyWorld.step anyPolicy) {} cutThenPublish) := by
  intro hlaw
  obtain ⟨id, _, honly⟩ := hlaw.healed 7 (by decide)
  have hfirst := (honly ⟨1, 7, 1, ()⟩ (by decide) rfl).mp (by decide)
  have hsecond := (honly ⟨2, 7, 2, ()⟩ (by decide) rfl).mp (by decide)
  exact absurd (hfirst.trans hsecond.symm) (by decide)

end Prequest.Routing
