import Prequest.Lib.Run
import Prequest.Outbox.Emit

/-!
# `outbox.emit`, statement by statement

The function inserts the event; on a conflict of tenant and idempotency key it
touches the row only when the row is the same event, and then returns its id.
Otherwise it looks again: it raises when the payload hash differs, and returns the
id of the row when it does not, whatever the event type and the aggregate of the
row are.

* `emitLaw_iff`: a run answers every call with its own event exactly when no call
  meets a row with its key and its payload hash and another event.
* `emits_abstract`: on such runs the function is `emit` of `Prequest.Outbox.Emit`.
-/

namespace Prequest.Outbox

open Prequest.Lib

variable {P H : Type}

/-- The columns of `outbox.events` that an emit writes. -/
structure EventRow (P H : Type) where
  id : Nat
  tenantId : Nat
  eventType : String
  eventVersion : Int
  aggregateType : String
  aggregateId : Nat
  payload : P
  payloadHash : H
  idempotencyKey : String
  enqueuedAt : Int
  availableAt : Int
  deriving DecidableEq, Repr

/-- A call, with the id that `gen_random_uuid` draws for it and its time. -/
structure EmitCall (P : Type) where
  pTenantId : Option Nat
  pEventType : Option String
  pAggregateType : Option String
  pAggregateId : Option Nat
  pPayload : Option P
  pIdempotencyKey : Option String
  pEventVersion : Option Int := some 1
  pAvailableAt : Option Int := none
  newId : Nat
  now : Int
  deriving DecidableEq, Repr

inductive EmitRaise where
  | tenantIdRequired
  | idempotencyKeyRequired
  | notNull (column : String)
  | idTaken
  | tenantNotFound
  | keyCollision (tenantId : Nat) (idempotencyKey : String)
  deriving DecidableEq, Repr

/-- What the function takes from outside: `md5(payload::text)`, the empty object and the tenants. -/
structure EmitEnv (P H : Type) where
  payloadHash : P → H
  emptyObject : P
  hasTenant : Nat → Bool

/-! ## The function -/

/-- The two rows have one `(tenant_id, idempotency_key)`. -/
def EventRow.sameKey (r new : EventRow P H) : Bool :=
  r.tenantId == new.tenantId && r.idempotencyKey == new.idempotencyKey

def EventRow.sameEvent (r new : EventRow P H) : Bool :=
  r.eventType == new.eventType && r.eventVersion == new.eventVersion &&
    r.aggregateType == new.aggregateType && r.aggregateId == new.aggregateId

/-- The row that a call proposes, after its checks and those of the columns. -/
def proposedRow (env : EmitEnv P H) (call : EmitCall P) : Except EmitRaise (EventRow P H) :=
  match call.pTenantId with
  | none => .error .tenantIdRequired
  | some tenantId =>
      match call.pIdempotencyKey with
      | none => .error .idempotencyKeyRequired
      | some idempotencyKey =>
          if idempotencyKey.length = 0 then .error .idempotencyKeyRequired
          else match call.pEventType, call.pEventVersion, call.pAggregateType, call.pAggregateId with
            | none, _, _, _ => .error (.notNull "event_type")
            | _, none, _, _ => .error (.notNull "event_version")
            | _, _, none, _ => .error (.notNull "aggregate_type")
            | _, _, _, none => .error (.notNull "aggregate_id")
            | some eventType, some eventVersion, some aggregateType, some aggregateId =>
                let vPayload := call.pPayload.getD env.emptyObject
                .ok
                  { id := call.newId
                    tenantId := tenantId
                    eventType := eventType
                    eventVersion := eventVersion
                    aggregateType := aggregateType
                    aggregateId := aggregateId
                    payload := vPayload
                    payloadHash := env.payloadHash vPayload
                    idempotencyKey := idempotencyKey
                    enqueuedAt := call.now
                    availableAt := call.pAvailableAt.getD call.now }

section

variable [DecidableEq H]

section

variable (env : EmitEnv P H)

/-- `insert … on conflict (tenant_id, idempotency_key) do update … where … returning id`. -/
def insertOnConflict (events : List (EventRow P H)) (new : EventRow P H) :
    Except EmitRaise (List (EventRow P H) × Option Nat) :=
  match events.find? fun r => r.sameKey new with
  | some r =>
      if r.sameEvent new ∧ r.payloadHash = new.payloadHash then
        .ok (events.map fun e => if e.sameKey new then { e with payloadHash := new.payloadHash } else e,
          some r.id)
      else .ok (events, none)
  | none =>
      if events.any fun r => r.id == new.id then .error .idTaken
      else if !env.hasTenant new.tenantId then .error .tenantNotFound
      else .ok (events ++ [new], some new.id)

/-- `outbox.emit`. A `none` in the answer is a null id. -/
def emitCall (events : List (EventRow P H)) (call : EmitCall P) :
    Except EmitRaise (List (EventRow P H) × Option Nat) := do
  let new ← proposedRow env call
  let (events, vId) ← insertOnConflict env events new
  match vId with
  | some id => .ok (events, some id)
  | none =>
      if events.any fun r => r.sameKey new && r.payloadHash != new.payloadHash then
        .error (.keyCollision new.tenantId new.idempotencyKey)
      else .ok (events, (events.find? fun r => r.sameKey new).map EventRow.id)

/-- One call; an exception leaves the table as it was. -/
def emitStep (events : List (EventRow P H)) (call : EmitCall P) :
    List (EventRow P H) :=
  match emitCall env events call with
  | .ok (events', _) => events'
  | .error _ => events

end

end

/-! ## The law -/

/-- `primary key (id)` and `unique (tenant_id, idempotency_key)`. -/
structure UniqueRows (events : List (EventRow P H)) : Prop where
  ids : (events.map EventRow.id).Nodup
  keys : (events.map fun r => (r.tenantId, r.idempotencyKey)).Nodup

/-- The row has the tenant, event, key and payload hash that the call has as arguments. -/
structure EventRow.Answers (r : EventRow P H) (env : EmitEnv P H) (call : EmitCall P) : Prop where
  tenantId : call.pTenantId = some r.tenantId
  eventType : call.pEventType = some r.eventType
  eventVersion : call.pEventVersion = some r.eventVersion
  aggregateType : call.pAggregateType = some r.aggregateType
  aggregateId : call.pAggregateId = some r.aggregateId
  idempotencyKey : call.pIdempotencyKey = some r.idempotencyKey
  payloadHash : r.payloadHash = env.payloadHash (call.pPayload.getD env.emptyObject)

section

variable [DecidableEq H]

/-- A call returns the id of its own event, and raises when its key belongs to another one. -/
structure CallLaw (env : EmitEnv P H) (events : List (EventRow P H)) (call : EmitCall P) : Prop where
  answered : ∀ events' vId, emitCall env events call = .ok (events', vId) →
    ∃ r ∈ events', vId = some r.id ∧ r.Answers env call
  refused : ∀ r ∈ events, call.pTenantId = some r.tenantId →
    call.pIdempotencyKey = some r.idempotencyKey → ¬r.Answers env call →
      (∃ e, emitCall env events call = .error e) ∧ emitStep env events call = events

/-- Every call of a run is lawful, and no two rows of a tenant ever share a key. -/
def EmitLaw (env : EmitEnv P H) (events : List (EventRow P H)) (calls : List (EmitCall P)) : Prop :=
  ∀ pre call post, calls = pre ++ call :: post →
    CallLaw env (run (emitStep env) events pre) call ∧
      UniqueRows (run (emitStep env) events (pre ++ [call]))

def NotAliased (env : EmitEnv P H) (events : List (EventRow P H)) (call : EmitCall P) : Prop :=
  ∀ new, proposedRow env call = .ok new → ∀ r ∈ events, r.sameKey new = true →
    r.payloadHash = new.payloadHash → r.sameEvent new = true

end

/-! ## One call -/

section

variable {env : EmitEnv P H} {events : List (EventRow P H)} {call : EmitCall P} {r new : EventRow P H}

theorem sameKey_iff :
    r.sameKey new = true ↔ (r.tenantId, r.idempotencyKey) = (new.tenantId, new.idempotencyKey) := by
  simp [EventRow.sameKey]

theorem answers_iff (hnew : proposedRow env call = .ok new) :
    r.Answers env call ↔
      r.sameKey new = true ∧ r.sameEvent new = true ∧ r.payloadHash = new.payloadHash := by
  unfold proposedRow at hnew
  split at hnew
  · cases hnew
  · rename_i tenantId htenant
    split at hnew
    · cases hnew
    · rename_i idempotencyKey hkey
      split at hnew
      · cases hnew
      · split at hnew
        all_goals try cases hnew
        rename_i eventType eventVersion aggregateType aggregateId htype hversion hatype haid
        simp only [sameKey_iff, EventRow.sameEvent, Prod.mk.injEq, Bool.and_eq_true, beq_iff_eq]
        constructor
        · intro h
          obtain ⟨h1, h2, h3, h4, h5, h6, h7⟩ := h
          grind
        · intro h
          constructor <;> grind

theorem sameKey_of_proposed (hnew : proposedRow env call = .ok new)
    (htenant : call.pTenantId = some r.tenantId)
    (hkey : call.pIdempotencyKey = some r.idempotencyKey) : r.sameKey new = true := by
  unfold proposedRow at hnew
  rw [htenant, hkey] at hnew
  simp only at hnew
  split at hnew
  · cases hnew
  · split at hnew
    all_goals try cases hnew
    exact sameKey_iff.mpr rfl

theorem eq_of_sameKey (hunique : UniqueRows events) {s : EventRow P H} (hr : r ∈ events)
    (hs : s ∈ events) (hrkey : r.sameKey new = true) (hskey : s.sameKey new = true) : r = s :=
  List.inj_on_of_nodup_map hunique.keys hr hs
    ((sameKey_iff.mp hrkey).trans (sameKey_iff.mp hskey).symm)

theorem find?_sameKey (hunique : UniqueRows events) (hr : r ∈ events)
    (hkey : r.sameKey new = true) : events.find? (fun r => r.sameKey new) = some r := by
  cases hfind : events.find? (fun r => r.sameKey new) with
  | none => exact absurd hkey (List.find?_eq_none.mp hfind r hr)
  | some s =>
    have hskey := List.find?_some hfind
    rw [eq_of_sameKey hunique (List.mem_of_find?_eq_some hfind) hr hskey hkey]

variable [DecidableEq H]

/-- The row of the key and the payload hash is returned whatever its event is; with another payload
hash the call raises. -/
theorem emitCall_of_present (hunique : UniqueRows events) (hnew : proposedRow env call = .ok new)
    (hr : r ∈ events) (hkey : r.sameKey new = true) :
    emitCall env events call = if r.payloadHash = new.payloadHash then .ok (events, some r.id)
      else .error (.keyCollision new.tenantId new.idempotencyKey) := by
  have hfind := find?_sameKey hunique hr hkey
  have hany : events.any (fun r => r.sameKey new && r.payloadHash != new.payloadHash) =
      (r.payloadHash != new.payloadHash) := by
    rw [Bool.eq_iff_iff, List.any_eq_true]
    constructor
    · intro h
      obtain ⟨s, hs, hdiffers⟩ := h
      rw [Bool.and_eq_true] at hdiffers
      rw [eq_of_sameKey hunique hr hs hkey hdiffers.1]
      exact hdiffers.2
    · intro h
      exact ⟨r, hr, by rw [hkey, h]; rfl⟩
  simp only [emitCall, hnew, insertOnConflict, hfind, bind, Except.bind]
  by_cases hhash : r.payloadHash = new.payloadHash
  · rw [if_pos hhash]
    by_cases hevent : r.sameEvent new = true
    · -- The update writes the payload hash that is there already.
      have hnoop : events.map (fun e =>
          if e.sameKey new = true then { e with payloadHash := new.payloadHash } else e) = events := by
        refine (List.map_congr_left fun e he => ?_).trans (List.map_id _)
        split
        · rename_i hekey
          rw [eq_of_sameKey hunique he hr hekey hkey, ← hhash]
          rfl
        · rfl
      rw [if_pos ⟨hevent, hhash⟩, hnoop]
    · rw [if_neg fun h => hevent h.1]
      simp [hany, hhash, hfind]
  · rw [if_neg fun h => hhash h.2, if_neg hhash]
    simp [hany, hhash]

theorem emitCall_of_absent (hnew : proposedRow env call = .ok new)
    (habsent : ∀ r ∈ events, r.sameKey new = false) :
    emitCall env events call =
      if new.id ∈ events.map EventRow.id then .error .idTaken
      else if env.hasTenant new.tenantId = false then .error .tenantNotFound
      else .ok (events ++ [new], some new.id) := by
  have hfind : events.find? (fun r => r.sameKey new) = none :=
    List.find?_eq_none.mpr fun r hr => by simp [habsent r hr]
  have hany : events.any (fun r => r.id == new.id) = true ↔ new.id ∈ events.map EventRow.id := by
    simp [List.any_eq_true, List.mem_map]
  simp only [emitCall, hnew, insertOnConflict, hfind, bind, Except.bind, hany, Bool.not_eq_true']
  by_cases hid : new.id ∈ events.map EventRow.id
  · simp only [if_pos hid]
  · simp only [if_neg hid]
    by_cases htenant : env.hasTenant new.tenantId = false
    · simp only [if_pos htenant]
    · simp only [if_neg htenant]

theorem emitCall_of_error {e : EmitRaise} (hnew : proposedRow env call = .error e) :
    emitCall env events call = .error e := by
  simp only [emitCall, hnew, bind, Except.bind]

/-- What a call leaves: the rows that were there, and possibly its own under a key and an id that
were free. -/
theorem emitStep_cases (hunique : UniqueRows events) :
    emitStep env events call = events ∨
      ∃ new, proposedRow env call = .ok new ∧ emitStep env events call = events ++ [new] ∧
        new.id ∉ events.map EventRow.id ∧ ∀ r ∈ events, r.sameKey new = false := by
  cases hnew : proposedRow env call with
  | error e => exact Or.inl (by rw [emitStep, emitCall_of_error hnew])
  | ok new =>
    by_cases hpresent : ∃ r ∈ events, r.sameKey new = true
    · obtain ⟨r, hr, hkey⟩ := hpresent
      rw [emitStep, emitCall_of_present hunique hnew hr hkey]
      by_cases hhash : r.payloadHash = new.payloadHash
      · exact Or.inl (by rw [if_pos hhash])
      · exact Or.inl (by rw [if_neg hhash])
    · have habsent : ∀ r ∈ events, r.sameKey new = false := fun r hr => by
        simpa using fun hkey => hpresent ⟨r, hr, hkey⟩
      rw [emitStep, emitCall_of_absent hnew habsent]
      by_cases hid : new.id ∈ events.map EventRow.id
      · exact Or.inl (by rw [if_pos hid])
      · by_cases htenant : env.hasTenant new.tenantId = false
        · exact Or.inl (by rw [if_neg hid, if_pos htenant])
        · exact Or.inr ⟨new, rfl, by rw [if_neg hid, if_neg htenant], hid, habsent⟩

theorem UniqueRows.emitStep (hunique : UniqueRows events) :
    UniqueRows (emitStep env events call) := by
  rcases emitStep_cases hunique with hsame | ⟨new, _, hrows, hid, habsent⟩
  · rwa [hsame]
  · rw [hrows]
    constructor
    · rw [List.map_append, List.nodup_append]
      refine ⟨hunique.ids, List.nodup_singleton _, ?_⟩
      intro a ha b hb
      obtain rfl := List.mem_singleton.mp hb
      exact fun heq => hid (heq ▸ ha)
    · rw [List.map_append, List.nodup_append]
      refine ⟨hunique.keys, List.nodup_singleton _, ?_⟩
      intro a ha b hb
      obtain rfl := List.mem_singleton.mp hb
      obtain ⟨r, hr, rfl⟩ := List.mem_map.mp ha
      intro heq
      have hfree := habsent r hr
      rw [sameKey_iff.mpr heq] at hfree
      cases hfree

/-! ## The law and the condition -/

theorem callLaw_iff (hunique : UniqueRows events) :
    CallLaw env events call ↔ NotAliased env events call := by
  constructor
  · intro hlaw new hnew r hr hkey hhash
    have hcall := emitCall_of_present hunique hnew hr hkey
    rw [if_pos hhash] at hcall
    obtain ⟨s, hs, hid, hanswers⟩ := hlaw.answered _ _ hcall
    obtain rfl := List.inj_on_of_nodup_map hunique.ids hr hs (Option.some.inj hid)
    exact ((answers_iff hnew).mp hanswers).2.1
  · intro hfree
    constructor
    · intro events' vId hcall
      cases hnew : proposedRow env call with
      | error e =>
        rw [emitCall_of_error hnew] at hcall
        cases hcall
      | ok new =>
        by_cases hpresent : ∃ r ∈ events, r.sameKey new = true
        · obtain ⟨r, hr, hkey⟩ := hpresent
          rw [emitCall_of_present hunique hnew hr hkey] at hcall
          split at hcall
          · rename_i hhash
            cases hcall
            exact ⟨r, hr, rfl, (answers_iff hnew).mpr ⟨hkey, hfree new hnew r hr hkey hhash, hhash⟩⟩
          · cases hcall
        · have habsent : ∀ r ∈ events, r.sameKey new = false := fun r hr => by
            simpa using fun hkey => hpresent ⟨r, hr, hkey⟩
          rw [emitCall_of_absent hnew habsent] at hcall
          split at hcall
          · cases hcall
          · split at hcall
            · cases hcall
            · cases hcall
              refine ⟨new, by simp, rfl, (answers_iff hnew).mpr ⟨?_, ?_, rfl⟩⟩
              · exact sameKey_iff.mpr rfl
              · simp [EventRow.sameEvent]
    · intro r hr htenant hkey hother
      cases hnew : proposedRow env call with
      | error e =>
        have hcall : emitCall env events call = .error e := emitCall_of_error hnew
        exact ⟨⟨e, hcall⟩, by rw [emitStep, hcall]⟩
      | ok new =>
        have hsame : r.sameKey new = true := sameKey_of_proposed hnew htenant hkey
        have hhash : r.payloadHash ≠ new.payloadHash := fun hhash => hother
          ((answers_iff hnew).mpr ⟨hsame, hfree new hnew r hr hsame hhash, hhash⟩)
        have hcall := emitCall_of_present hunique hnew hr hsame
        rw [if_neg hhash] at hcall
        exact ⟨⟨_, hcall⟩, by rw [emitStep, hcall]⟩

/-- In a run every call answers with its own event and keys stay unique exactly when no call meets
another event under its key and payload hash. -/
theorem emitLaw_iff (env : EmitEnv P H) (events : List (EventRow P H)) (calls : List (EmitCall P))
    (hunique : UniqueRows events) :
    EmitLaw env events calls ↔ Guarded (emitStep env) (NotAliased env) events calls := by
  have hreached : ∀ pre, UniqueRows (run (emitStep env) events pre) := fun pre =>
    run_invariant (fun _ _ h => h.emitStep) hunique pre
  rw [guarded_iff]
  constructor
  · intro h pre call post hsplit
    exact (callLaw_iff (hreached pre)).mp (h pre call post hsplit).1
  · intro h pre call post hsplit
    exact ⟨(callLaw_iff (hreached pre)).mpr (h pre call post hsplit), hreached _⟩

/-! ## The abstract outbox -/

/-- What an event is, apart from its key: its type, version, aggregate and payload hash. -/
abbrev EventContent (H : Type) : Type := (String × Int × String × Nat) × H

def EventRow.content (r : EventRow P H) : EventContent H :=
  ((r.eventType, r.eventVersion, r.aggregateType, r.aggregateId), r.payloadHash)

def EventRow.abstract (r : EventRow P H) : Event (Nat × String) (EventContent H) where
  idempotencyKey := (r.tenantId, r.idempotencyKey)
  payload := r.content

def abstractEvents (events : List (EventRow P H)) (hunique : UniqueRows events) :
    Table (Event (Nat × String) (EventContent H)) where
  rows := events.map EventRow.abstract
  nodup := by
    rw [List.map_map]
    exact hunique.keys

omit [DecidableEq H] in
theorem content_eq_iff :
    r.content = new.content ↔ r.sameEvent new = true ∧ r.payloadHash = new.payloadHash := by
  simp [EventRow.content, EventRow.sameEvent, and_assoc]

omit [DecidableEq H] in
theorem get?_abstractEvents (hunique : UniqueRows events) (hr : r ∈ events)
    (hkey : r.sameKey new = true) :
    (abstractEvents events hunique).get? new.abstract.idempotencyKey = some r.abstract :=
  Table.get?_eq_some.mpr ⟨List.mem_map_of_mem hr, sameKey_iff.mp hkey⟩

/-- A call that meets no other event under its key and payload hash is an emit of the abstract
outbox: it is answered exactly when that is, and leaves the same events. -/
theorem emit_abstracts (hunique : UniqueRows events) (hfree : NotAliased env events call)
    (hnew : proposedRow env call = .ok new) (hid : new.id ∉ events.map EventRow.id)
    (htenant : env.hasTenant new.tenantId = true) :
    match emitCall env events call with
    | .ok _ => emit (abstractEvents events hunique) new.abstract =
        .ok (abstractEvents (emitStep env events call) hunique.emitStep)
    | .error _ => emit (abstractEvents events hunique) new.abstract = .error .keyCollision := by
  by_cases hpresent : ∃ r ∈ events, r.sameKey new = true
  · obtain ⟨r, hr, hkey⟩ := hpresent
    have hcall := emitCall_of_present hunique hnew hr hkey
    unfold emit
    rw [get?_abstractEvents hunique hr hkey]
    by_cases hhash : r.payloadHash = new.payloadHash
    · have hsame : r.abstract.payload = new.abstract.payload :=
        content_eq_iff.mpr ⟨hfree new hnew r hr hkey hhash, hhash⟩
      rw [if_pos hhash] at hcall
      have hrows : emitStep env events call = events := by rw [emitStep, hcall]
      simp only [hcall, if_pos hsame, hrows]
    · have hother : r.abstract.payload ≠ new.abstract.payload := fun heq =>
        hhash (content_eq_iff.mp heq).2
      rw [if_neg hhash] at hcall
      simp only [hcall, if_neg hother]
  · have habsent : ∀ r ∈ events, r.sameKey new = false := fun r hr => by
      simpa using fun hkey => hpresent ⟨r, hr, hkey⟩
    have hcall := emitCall_of_absent hnew habsent
    rw [if_neg hid, if_neg (by simp [htenant])] at hcall
    have hnone : (abstractEvents events hunique).get? new.abstract.idempotencyKey = none := by
      refine Table.get?_eq_none.mpr ?_
      intro x hx heq
      obtain ⟨r, hr, rfl⟩ := List.mem_map.mp hx
      have hfreeKey := habsent r hr
      rw [sameKey_iff.mpr heq] at hfreeKey
      cases hfreeKey
    have hrows : emitStep env events call = events ++ [new] := by rw [emitStep, hcall]
    unfold emit
    simp only [hcall, hnone]
    congr 1
    apply Table.ext
    rw [Table.put_of_fresh hnone]
    simp [abstractEvents, hrows]

/-- A call that raises leaves the abstract outbox as it is. -/
def abstractStep (env : EmitEnv P H) (outbox : Table (Event (Nat × String) (EventContent H)))
    (call : EmitCall P) : Table (Event (Nat × String) (EventContent H)) :=
  match proposedRow env call with
  | .error _ => outbox
  | .ok new =>
      match emit outbox new.abstract with
      | .ok outbox' => outbox'
      | .error _ => outbox

/-- The drawn id is free, the tenant exists, and the call meets no other event. -/
structure WellPlaced (env : EmitEnv P H) (events : List (EventRow P H)) (call : EmitCall P) :
    Prop where
  notAliased : NotAliased env events call
  fresh : ∀ new, proposedRow env call = .ok new → new.id ∉ events.map EventRow.id
  tenant : ∀ new, proposedRow env call = .ok new → env.hasTenant new.tenantId = true

theorem abstractStep_eq (hunique : UniqueRows events)
    (hplaced : WellPlaced env events call) :
    abstractStep env (abstractEvents events hunique) call =
      abstractEvents (emitStep env events call) hunique.emitStep := by
  have hsame : emitStep env events call = events → abstractEvents events hunique =
      abstractEvents (emitStep env events call) hunique.emitStep := fun hrows =>
    Table.ext (by simp [abstractEvents, hrows])
  unfold abstractStep
  cases hnew : proposedRow env call with
  | error e => exact hsame (by rw [emitStep, emitCall_of_error hnew])
  | ok new =>
    have habstracts := emit_abstracts hunique hplaced.notAliased hnew (hplaced.fresh new hnew)
      (hplaced.tenant new hnew)
    cases hcall : emitCall env events call with
    | ok out =>
      rw [hcall] at habstracts
      simp only [habstracts]
    | error e =>
      rw [hcall] at habstracts
      simp only [habstracts]
      exact hsame (by rw [emitStep, hcall])

/-- The rows after a run of calls are those of the abstract outbox after it. -/
theorem emits_abstract {calls : List (EmitCall P)} (hunique : UniqueRows events)
    (hplaced : Guarded (emitStep env) (WellPlaced env) events calls) :
    abstractEvents (run (emitStep env) events calls)
        (run_invariant (fun _ _ h => h.emitStep) hunique calls) =
      run (abstractStep env) (abstractEvents events hunique) calls := by
  induction calls generalizing events with
  | nil => rfl
  | cons call calls ih =>
    rw [run_cons (f := abstractStep env), abstractStep_eq hunique hplaced.1]
    exact ih hunique.emitStep hplaced.2

end

/-! ## Two calls -/

def textEnv : EmitEnv String String where
  payloadHash := id
  emptyObject := "\x7b\x7d"
  hasTenant := fun tenantId => tenantId == 1

def setupCall : EmitCall String where
  pTenantId := some 1
  pEventType := some "setup_work_order.create_required"
  pAggregateType := some "booking"
  pAggregateId := some 5
  pPayload := none
  pIdempotencyKey := some "booking-5"
  newId := 10
  now := 0

/-- The same key and payload for another event. -/
def cancelCall : EmitCall String := { setupCall with
  pEventType := some "booking.cancelled"
  newId := 11 }

/-- The same call, made again. -/
def retriedCall : EmitCall String := { setupCall with
  newId := 12
  now := 60 }

/-- Another payload under the same key, which raises. -/
def collidingCall : EmitCall String := { setupCall with
  pPayload := some "other"
  newId := 13 }

def setupRow : EventRow String String where
  id := 10
  tenantId := 1
  eventType := "setup_work_order.create_required"
  eventVersion := 1
  aggregateType := "booking"
  aggregateId := 5
  payload := "\x7b\x7d"
  payloadHash := "\x7b\x7d"
  idempotencyKey := "booking-5"
  enqueuedAt := 0
  availableAt := 0

theorem emitStep_setupCall : emitStep textEnv [] setupCall = [setupRow] := by decide

theorem notAliased_retriedCall : NotAliased textEnv [setupRow] retriedCall := by
  intro new hnew r hr _ _
  obtain rfl := List.mem_singleton.mp hr
  cases hnew
  decide

/-- A call, its retry and one that collides with it leave one event. -/
theorem emits_abstract_setupCall :
    (run (abstractStep textEnv) Table.empty [setupCall, retriedCall, collidingCall]).rows =
      (run (emitStep textEnv) [] [setupCall, retriedCall, collidingCall]).map EventRow.abstract ∧
    run (emitStep textEnv) [] [setupCall, retriedCall, collidingCall] = [setupRow] := by
  have hunique : UniqueRows ([] : List (EventRow String String)) :=
    ⟨List.nodup_nil, List.nodup_nil⟩
  have hretried : emitStep textEnv [setupRow] retriedCall = [setupRow] := by decide
  have hplaced : Guarded (emitStep textEnv) (WellPlaced textEnv) []
      [setupCall, retriedCall, collidingCall] := by
    refine ⟨⟨fun _ _ _ => nofun, fun _ _ => nofun, fun new hnew => ?_⟩, ?_, ?_, trivial⟩
    · cases hnew
      rfl
    · rw [emitStep_setupCall]
      refine ⟨notAliased_retriedCall, fun new hnew => ?_, fun new hnew => ?_⟩
      · cases hnew
        decide
      · cases hnew
        rfl
    · rw [emitStep_setupCall, hretried]
      refine ⟨fun new hnew r hr _ hhash => ?_, fun new hnew => ?_, fun new hnew => ?_⟩
      · obtain rfl := List.mem_singleton.mp hr
        cases hnew
        exact absurd hhash (by decide)
      · cases hnew
        decide
      · cases hnew
        rfl
  exact ⟨(congrArg Table.rows (emits_abstract hunique hplaced)).symm, by decide⟩

/-- A retry is answered with the event of the first call. -/
theorem emitLaw_retry : EmitLaw textEnv [] [setupCall, retriedCall] := by
  refine (emitLaw_iff textEnv [] _ ⟨List.nodup_nil, List.nodup_nil⟩).mpr ⟨?_, ?_, trivial⟩
  · intro _ _ r hr
    cases hr
  · rw [emitStep_setupCall]
    exact notAliased_retriedCall

/-- The second event is lost: its call returns the id of the first one. -/
theorem cancelCall_is_aliased :
    ¬∀ (env : EmitEnv String String) (calls : List (EmitCall String)), EmitLaw env [] calls := by
  intro hlaw
  have hcall := (hlaw textEnv [setupCall, cancelCall] [setupCall] cancelCall [] rfl).1
  obtain ⟨r, hr, _, hanswers⟩ := hcall.answered _ (some 10) (by rfl)
  have htypes : ∀ r ∈ run (emitStep textEnv) [] [setupCall],
      cancelCall.pEventType ≠ some r.eventType := by decide
  exact htypes r hr hanswers.eventType

end Prequest.Outbox
