import Prequest.Lib.Inverse
import Prequest.Lib.Loop
import Prequest.Lib.Run
import Prequest.Lib.Table

/-!
# The pool of visitor passes

A pass in use names its visitor, and a visitor names the pass that was handed out.
Five calls move passes around, each in a transaction that locks the pass first.

* `runLinked_iff`: it holds exactly as long as passes go to visitors without one.
-/

namespace Prequest.Visitors

open Prequest.Lib

/-! ## Rows -/

inductive PassStatus where
  | available
  | reserved
  | inUse
  | lost
  | retired
  deriving DecidableEq, Repr

/-- `pool_state_consistency`. -/
def poolStateConsistency (status : PassStatus) (currentVisitorId reservedForVisitorId : Option Nat) :
    Bool :=
  match status with
  | .inUse => currentVisitorId.isSome
  | .reserved => reservedForVisitorId.isSome
  | _ => true

/-- A row of `visitor_pass_pool`. -/
structure PassRow where
  id : Nat
  tenantId : Nat
  passNumber : String
  status : PassStatus := .available
  currentVisitorId : Option Nat := none
  reservedForVisitorId : Option Nat := none
  lastAssignedAt : Option Int := none
  consistent : poolStateConsistency status currentVisitorId reservedForVisitorId = true := by decide
  deriving DecidableEq

instance : Keyed PassRow Nat where
  key := PassRow.id

/-- A row of `visitors`. -/
structure VisitorRow where
  id : Nat
  tenantId : Nat
  visitorPassId : Option Nat := none
  deriving DecidableEq, Repr

instance : Keyed VisitorRow Nat where
  key := VisitorRow.id

/-- A row of `audit_events`. -/
structure PassAudit where
  tenantId : Nat
  eventType : String
  passId : Nat
  visitorId : Option Nat
  fromStatus : Option PassStatus := none
  reason : Option String := none
  deriving DecidableEq, Repr

structure PassDb where
  passes : Table PassRow
  visitors : Table VisitorRow
  audits : List PassAudit := []

inductive PassError where
  /-- `visitor.tenant_mismatch`. -/
  | tenantMismatch
  | notFound (entity : String) (id : Nat)
  /-- `visitor.pass_unavailable`. -/
  | passUnavailable (detail : String)
  deriving DecidableEq, Repr

def PassStatus.text : PassStatus → String
  | .available => "available"
  | .reserved => "reserved"
  | .inUse => "in_use"
  | .lost => "lost"
  | .retired => "retired"

/-! ## The calls -/

/-- `visitor.pass_unavailable`, with the number of the pass in its text. -/
def PassRow.unavailable (pass : PassRow) (detail : String) : PassError :=
  .passUnavailable ("pass " ++ pass.passNumber ++ " is " ++ detail)

section

variable (db : PassDb)

def lockPass (passId : Nat) : Except PassError PassRow :=
  match db.passes.get? passId with
  | none => .error (.notFound "visitor_pass" passId)
  | some pass => .ok pass

def lockVisitor (visitorId tenantId : Nat) : Except PassError VisitorRow :=
  match db.visitors.get? visitorId with
  | none => .error (.notFound "visitor" visitorId)
  | some visitor =>
      if visitor.tenantId = tenantId then .ok visitor else .error (.notFound "visitor" visitorId)

/-- How every call begins: the tenant of the request, the pass, and the tenant of the pass. -/
def lockOwnPass (ctxTenant passId tenantId : Nat) : Except PassError PassRow :=
  if ctxTenant = tenantId then
    match lockPass db passId with
    | .error e => .error e
    | .ok pass => if pass.tenantId = tenantId then .ok pass else .error (.notFound "visitor_pass" passId)
  else .error .tenantMismatch

/-- `set … where id = passId and tenant_id = tenantId`. -/
def PassDb.setPass (passId tenantId : Nat) (set : Table.Assignment PassRow) : PassDb :=
  { db with passes := db.passes.update (fun p => p.id == passId && p.tenantId == tenantId) set }

/-- `set visitor_pass_id = passId where id = visitorId and tenant_id = tenantId`. -/
def PassDb.setVisitorPass (visitorId tenantId : Nat) (passId : Option Nat) : PassDb :=
  { db with
    visitors := db.visitors.update (fun v => v.id == visitorId && v.tenantId == tenantId)
      { apply := fun v => { v with visitorPassId := passId }, key_apply := fun _ => rfl } }

def PassDb.emitAudit (audit : PassAudit) : PassDb :=
  { db with audits := db.audits ++ [audit] }

end

def handOut (visitorId : Nat) (now : Int) : Table.Assignment PassRow where
  apply p :=
    { p with
      status := .inUse
      currentVisitorId := some visitorId
      reservedForVisitorId := none
      lastAssignedAt := some now
      consistent := rfl }
  key_apply _ := rfl

def keepFor (visitorId : Nat) : Table.Assignment PassRow where
  apply p :=
    { p with status := .reserved, reservedForVisitorId := some visitorId, consistent := rfl }
  key_apply _ := rfl

/-- The columns of a pass that nobody has: it is back, or it is lost. -/
def takeBack (status : PassStatus) (h : poolStateConsistency status none none = true) :
    Table.Assignment PassRow where
  apply p :=
    { p with
      status := status
      currentVisitorId := none
      reservedForVisitorId := none
      consistent := h }
  key_apply _ := rfl

def makeAvailable : Table.Assignment PassRow where
  apply p := { p with status := .available, consistent := rfl }
  key_apply _ := rfl

/-- The `switch` of `assignPass`. -/
def assignable (pass : PassRow) (visitorId : Nat) : Except PassError Unit :=
  match pass.status with
  | .available => .ok ()
  | .reserved =>
      if pass.reservedForVisitorId = some visitorId then .ok ()
      else .error (pass.unavailable "reserved for another visitor")
  | .inUse => .error (pass.unavailable "already in use")
  | .lost | .retired => .error (pass.unavailable (pass.status.text ++ " and cannot be assigned"))

section

variable (db : PassDb)

def assignPass (ctxTenant passId visitorId tenantId : Nat) (now : Int) :
    Except PassError PassDb := do
  let pass ← lockOwnPass db ctxTenant passId tenantId
  let _ ← lockVisitor db visitorId tenantId
  let _ ← assignable pass visitorId
  .ok (((db.setPass passId tenantId (handOut visitorId now)).setVisitorPass visitorId tenantId
    (some passId)).emitAudit
      { tenantId := ctxTenant, eventType := "visitor.pass_assigned", passId := passId,
        visitorId := some visitorId, fromStatus := some pass.status })

def reservePass (ctxTenant passId visitorId tenantId : Nat) :
    Except PassError PassDb := do
  let pass ← lockOwnPass db ctxTenant passId tenantId
  let _ ← lockVisitor db visitorId tenantId
  if pass.status = .available then
    .ok ((db.setPass passId tenantId (keepFor visitorId)).emitAudit
      { tenantId := ctxTenant, eventType := "visitor.pass_reserved", passId := passId,
        visitorId := some visitorId })
  else
    .error (pass.unavailable (pass.status.text ++ "; only 'available' passes can be reserved"))

/-- The visitor who had the pass, if there was one, no longer names it. -/
def PassDb.clearHolder (previousVisitorId : Option Nat) (tenantId : Nat) : PassDb :=
  match previousVisitorId with
  | none => db
  | some visitorId => db.setVisitorPass visitorId tenantId none

def returnPass (ctxTenant passId tenantId : Nat) : Except PassError PassDb := do
  let pass ← lockOwnPass db ctxTenant passId tenantId
  if pass.status = .inUse then
    .ok (((db.setPass passId tenantId (takeBack .available rfl)).clearHolder pass.currentVisitorId
      tenantId).emitAudit
        { tenantId := ctxTenant, eventType := "visitor.pass_returned", passId := passId,
          visitorId := pass.currentVisitorId })
  else
    .error (pass.unavailable (pass.status.text ++ "; only 'in_use' passes can be returned"))

def markPassMissing (ctxTenant passId tenantId : Nat) (reason : Option String) :
    Except PassError PassDb := do
  let pass ← lockOwnPass db ctxTenant passId tenantId
  if pass.status = .retired then
    .error (pass.unavailable "retired; cannot mark missing")
  else
    .ok (((db.setPass passId tenantId (takeBack .lost rfl)).clearHolder pass.currentVisitorId
      tenantId).emitAudit
        { tenantId := ctxTenant, eventType := "visitor.pass_marked_missing", passId := passId,
          visitorId := pass.currentVisitorId, fromStatus := some pass.status, reason := reason })

def markPassRecovered (ctxTenant passId tenantId : Nat) : Except PassError PassDb := do
  let pass ← lockOwnPass db ctxTenant passId tenantId
  if pass.status = .lost then
    .ok ((db.setPass passId tenantId makeAvailable).emitAudit
      { tenantId := ctxTenant, eventType := "visitor.pass_recovered", passId := passId,
        visitorId := none })
  else
    .error (pass.unavailable (pass.status.text ++ "; only 'lost' passes can be recovered"))

end

inductive PassAction where
  | assignPass (passId visitorId : Nat) (now : Int)
  | reservePass (passId visitorId : Nat)
  | returnPass (passId : Nat)
  | markPassMissing (passId : Nat) (reason : Option String)
  | markPassRecovered (passId : Nat)
  deriving DecidableEq, Repr

structure PassCall where
  ctxTenant : Nat
  tenantId : Nat
  action : PassAction
  deriving DecidableEq, Repr

def perform (db : PassDb) (call : PassCall) : Except PassError PassDb :=
  match call.action with
  | .assignPass passId visitorId now =>
      assignPass db call.ctxTenant passId visitorId call.tenantId now
  | .reservePass passId visitorId => reservePass db call.ctxTenant passId visitorId call.tenantId
  | .returnPass passId => returnPass db call.ctxTenant passId call.tenantId
  | .markPassMissing passId reason =>
      markPassMissing db call.ctxTenant passId call.tenantId reason
  | .markPassRecovered passId => markPassRecovered db call.ctxTenant passId call.tenantId

/-- `tx`: a call that throws is rolled back. -/
def tx (db : PassDb) (call : PassCall) : PassDb :=
  match perform db call with
  | .ok db' => db'
  | .error _ => db

/-! ## The two references -/

def PassRow.holder (p : PassRow) : Option Nat := if p.status = .inUse then p.currentVisitorId else none

def holder (db : PassDb) (passId : Nat) : Option Nat := (db.passes.get? passId).bind PassRow.holder

def heldPass (db : PassDb) (visitorId : Nat) : Option Nat :=
  (db.visitors.get? visitorId).bind VisitorRow.visitorPassId

/-- A pass is in use with a visitor exactly when the visitor names the pass. -/
def Linked (db : PassDb) : Prop := Inverse (holder db) (heldPass db)

/-- Only a pass in use names a visitor, and the visitor is of the tenant of the pass. -/
structure PassHolds (visitors : Table VisitorRow) (p : PassRow) : Prop where
  inUse : p.currentVisitorId ≠ none → p.status = .inUse
  /-- `pool_current_visitor_fk`. -/
  tenant : ∀ visitorId, p.currentVisitorId = some visitorId →
    ∃ v, visitors.get? visitorId = some v ∧ v.tenantId = p.tenantId

/-- What a pool that the calls built looks like. -/
def Holds (db : PassDb) : Prop :=
  ∀ passId p, db.passes.get? passId = some p → PassHolds db.visitors p

section

variable {db : PassDb} {ctxTenant passId visitorId tenantId : Nat} {pass : PassRow}

theorem lockOwnPass_eq_ok : lockOwnPass db ctxTenant passId tenantId = .ok pass ↔
    ctxTenant = tenantId ∧ db.passes.get? passId = some pass ∧ pass.tenantId = tenantId := by
  unfold lockOwnPass lockPass
  split
  · rename_i hctx
    cases hrow : db.passes.get? passId with
    | none => simp
    | some row =>
      simp only [hctx, true_and, Option.some.injEq]
      split
      · rename_i htenant
        rw [Except.ok.injEq]
        exact ⟨fun h => ⟨h, h ▸ htenant⟩, fun h => h.1⟩
      · rename_i htenant
        constructor
        · intro h
          cases h
        · intro h
          exact absurd (h.1 ▸ h.2) htenant
  · rename_i hctx
    constructor
    · intro h
      cases h
    · intro h
      exact absurd h.1 hctx

theorem lockVisitor_eq_ok {v : VisitorRow} : lockVisitor db visitorId tenantId = .ok v ↔
    db.visitors.get? visitorId = some v ∧ v.tenantId = tenantId := by
  unfold lockVisitor
  cases hrow : db.visitors.get? visitorId with
  | none => simp
  | some row =>
    simp only [Option.some.injEq]
    split
    · rename_i htenant
      rw [Except.ok.injEq]
      exact ⟨fun h => ⟨h, h ▸ htenant⟩, fun h => h.1⟩
    · rename_i htenant
      exact iff_of_false nofun fun h => htenant (h.1 ▸ h.2)

theorem holder_setPass (hpass : db.passes.get? passId = some pass) (htenant : pass.tenantId = tenantId)
    (set : Table.Assignment PassRow) :
    holder (db.setPass passId tenantId set) =
      Function.update (holder db) passId (set.apply pass).holder := by
  funext other
  show ((db.passes.update _ set).get? other).bind PassRow.holder = _
  rw [Table.get?_update]
  by_cases heq : other = passId
  · subst heq
    have hid : pass.id = other := (Table.get?_eq_some.mp hpass).2
    rw [Function.update_self, hpass]
    simp [Table.updated, hid, htenant]
  · rw [Function.update_of_ne heq]
    show _ = (db.passes.get? other).bind PassRow.holder
    cases hrow : db.passes.get? other with
    | none => rfl
    | some row =>
      have hid : row.id = other := (Table.get?_eq_some.mp hrow).2
      simp [Table.updated, hid, heq]

theorem heldPass_setVisitorPass (db : PassDb) {v : VisitorRow} (hv : db.visitors.get? visitorId = some v)
    (htenant : v.tenantId = tenantId) (passId : Option Nat) :
    heldPass (db.setVisitorPass visitorId tenantId passId) =
      Function.update (heldPass db) visitorId passId := by
  funext other
  show ((db.visitors.update _ _).get? other).bind VisitorRow.visitorPassId = _
  rw [Table.get?_update]
  by_cases heq : other = visitorId
  · subst heq
    have hid : v.id = other := (Table.get?_eq_some.mp hv).2
    rw [Function.update_self, hv]
    simp [Table.updated, hid, htenant]
  · rw [Function.update_of_ne heq]
    show _ = (db.visitors.get? other).bind VisitorRow.visitorPassId
    cases hrow : db.visitors.get? other with
    | none => rfl
    | some row =>
      have hid : row.id = other := (Table.get?_eq_some.mp hrow).2
      simp [Table.updated, hid, heq]

theorem Holds.setPass (h : Holds db) {set : Table.Assignment PassRow}
    (hset : ∀ p, db.passes.get? passId = some p → p.tenantId = tenantId →
      PassHolds db.visitors (set.apply p)) : Holds (db.setPass passId tenantId set) := by
  intro other p' hp'
  have hget : (db.passes.update (fun p => p.id == passId && p.tenantId == tenantId) set).get? other =
      some p' := hp'
  rw [Table.get?_update] at hget
  obtain ⟨p, hp, rfl⟩ := Option.map_eq_some_iff.mp hget
  unfold Table.updated
  split
  · rename_i hcond
    obtain ⟨hid, htenant⟩ := (Bool.and_eq_true _ _).mp hcond
    have hother : other = passId := (Table.get?_eq_some.mp hp).2.symm.trans (beq_iff_eq.mp hid)
    exact hset p (hother ▸ hp) (beq_iff_eq.mp htenant)
  · exact h other p hp

theorem Holds.setVisitorPass (h : Holds db) (passId : Option Nat) :
    Holds (db.setVisitorPass visitorId tenantId passId) := by
  intro other p hp
  have hold := h other p hp
  refine ⟨hold.inUse, fun id hid => ?_⟩
  obtain ⟨v, hv, htenant⟩ := hold.tenant id hid
  refine ⟨_, (Table.get?_update db.visitors id).trans (congrArg (Option.map _) hv), ?_⟩
  unfold Table.updated
  split
  · exact htenant
  · exact htenant

theorem PassHolds.of_none {visitors : Table VisitorRow} (h : pass.currentVisitorId = none) :
    PassHolds visitors pass := by
  refine ⟨fun hne => absurd h hne, fun id hid => ?_⟩
  rw [h] at hid
  cases hid

theorem Holds.current_eq_none (h : Holds db) (hpass : db.passes.get? passId = some pass)
    (hstatus : pass.status ≠ .inUse) : pass.currentVisitorId = none := by
  by_contra hne
  exact hstatus ((h passId pass hpass).inUse hne)

theorem Holds.visitor (h : Holds db) (hpass : db.passes.get? passId = some pass)
    (hcurrent : pass.currentVisitorId = some visitorId) :
    holder db passId = some visitorId ∧
      ∃ v, db.visitors.get? visitorId = some v ∧ v.tenantId = pass.tenantId := by
  have hrow := h passId pass hpass
  have hinUse : pass.status = .inUse := hrow.inUse (by simp [hcurrent])
  refine ⟨?_, hrow.tenant visitorId hcurrent⟩
  simp [holder, hpass, PassRow.holder, hinUse, hcurrent]

end

/-! ## One call -/

section

variable {db db' : PassDb} {ctxTenant passId visitorId tenantId : Nat} {now : Int}

variable {pass : PassRow}

theorem holder_of_assignable (h : assignable pass visitorId = .ok ()) : pass.holder = none := by
  unfold PassRow.holder
  refine if_neg fun hinUse => ?_
  rw [assignable, hinUse] at h
  cases h

theorem assignPass_ok (hholds : Holds db)
    (h : assignPass db ctxTenant passId visitorId tenantId now = .ok db') :
    Holds db' ∧ holder db passId = none ∧
      holder db' = Function.update (holder db) passId (some visitorId) ∧
      heldPass db' = Function.update (heldPass db) visitorId (some passId) := by
  obtain ⟨pass, hlock, h⟩ := bind_eq_ok.mp h
  obtain ⟨visitor, hvisitor, h⟩ := bind_eq_ok.mp h
  obtain ⟨_, hassignable, h⟩ := bind_eq_ok.mp h
  obtain rfl := Except.ok.inj h
  obtain ⟨_, hpass, htenant⟩ := lockOwnPass_eq_ok.mp hlock
  obtain ⟨hv, hvtenant⟩ := lockVisitor_eq_ok.mp hvisitor
  refine ⟨?_, ?_, ?_, ?_⟩
  · refine Holds.setVisitorPass (hholds.setPass fun p _ hp => ⟨fun _ => rfl, fun id hid => ?_⟩) _
    obtain rfl := Option.some.inj hid
    exact ⟨visitor, hv, hvtenant.trans hp.symm⟩
  · show (db.passes.get? passId).bind PassRow.holder = none
    rw [hpass]
    exact holder_of_assignable hassignable
  · exact holder_setPass hpass htenant (handOut visitorId now)
  · exact heldPass_setVisitorPass (db.setPass passId tenantId (handOut visitorId now)) hv hvtenant
      (some passId)

theorem holder_setPass_same (hpass : db.passes.get? passId = some pass)
    (htenant : pass.tenantId = tenantId) {set : Table.Assignment PassRow}
    (hsame : (set.apply pass).holder = pass.holder) :
    holder (db.setPass passId tenantId set) = holder db := by
  rw [holder_setPass hpass htenant, hsame]
  refine Function.update_eq_self_iff.mpr ?_
  show pass.holder = (db.passes.get? passId).bind PassRow.holder
  rw [hpass]
  rfl

theorem reservePass_ok (hholds : Holds db)
    (h : reservePass db ctxTenant passId visitorId tenantId = .ok db') :
    Holds db' ∧ holder db' = holder db ∧ heldPass db' = heldPass db := by
  obtain ⟨pass, hlock, h⟩ := bind_eq_ok.mp h
  obtain ⟨_, _, h⟩ := bind_eq_ok.mp h
  obtain ⟨_, hpass, htenant⟩ := lockOwnPass_eq_ok.mp hlock
  split at h
  · rename_i havailable
    obtain rfl := Except.ok.inj h
    have hcurrent := hholds.current_eq_none hpass (by simp [havailable])
    refine ⟨hholds.setPass fun p hp _ => ?_, ?_, rfl⟩
    · rw [hpass] at hp
      obtain rfl := Option.some.inj hp
      exact PassHolds.of_none hcurrent
    · refine holder_setPass_same hpass htenant ?_
      simp [PassRow.holder, keepFor, havailable]
  · cases h

/-- The pass and the visitor who had it, if there was one, let go of each other, and nothing else
moves. -/
def Freed (db db' : PassDb) (passId : Nat) : Prop :=
  (∃ visitorId, holder db passId = some visitorId ∧
    holder db' = Function.update (holder db) passId none ∧
    heldPass db' = Function.update (heldPass db) visitorId none) ∨
  holder db' = holder db ∧ heldPass db' = heldPass db

theorem takeBack_ok (hholds : Holds db)
    (hpass : db.passes.get? passId = some pass) (htenant : pass.tenantId = tenantId)
    {status : PassStatus} (hstatus : poolStateConsistency status none none = true)
    {audit : PassAudit} (hdb' : db' = ((db.setPass passId tenantId
      (takeBack status hstatus)).clearHolder pass.currentVisitorId tenantId).emitAudit audit) :
    Holds db' ∧ Freed db db' passId := by
  subst hdb'
  have hset : Holds (db.setPass passId tenantId (takeBack status hstatus)) :=
    hholds.setPass fun p _ _ => ⟨fun hne => absurd rfl hne, fun id hid => by cases hid⟩
  have hnobody : ((takeBack status hstatus).apply pass).holder = none := by
    exact ite_self none
  cases hcurrent : pass.currentVisitorId with
  | none =>
    refine ⟨hset, Or.inr ⟨holder_setPass_same hpass htenant ?_, rfl⟩⟩
    rw [hnobody, PassRow.holder, hcurrent]
    exact (ite_self none).symm
  | some visitorId =>
    obtain ⟨hholder, v, hv, hvtenant⟩ := hholds.visitor hpass hcurrent
    refine ⟨hset.setVisitorPass none, Or.inl ⟨visitorId, hholder, ?_, ?_⟩⟩
    · exact (holder_setPass hpass htenant _).trans (by rw [hnobody])
    · exact heldPass_setVisitorPass (db.setPass passId tenantId (takeBack status hstatus)) hv
        (hvtenant.trans htenant) none

theorem returnPass_ok (hholds : Holds db) (h : returnPass db ctxTenant passId tenantId = .ok db') :
    Holds db' ∧ Freed db db' passId := by
  obtain ⟨pass, hlock, h⟩ := bind_eq_ok.mp h
  obtain ⟨_, hpass, htenant⟩ := lockOwnPass_eq_ok.mp hlock
  split at h
  · obtain rfl := Except.ok.inj h
    exact takeBack_ok hholds hpass htenant rfl rfl
  · cases h

theorem markPassMissing_ok (hholds : Holds db) {reason : Option String}
    (h : markPassMissing db ctxTenant passId tenantId reason = .ok db') :
    Holds db' ∧ Freed db db' passId := by
  obtain ⟨pass, hlock, h⟩ := bind_eq_ok.mp h
  obtain ⟨_, hpass, htenant⟩ := lockOwnPass_eq_ok.mp hlock
  split at h
  · cases h
  · obtain rfl := Except.ok.inj h
    exact takeBack_ok hholds hpass htenant rfl rfl

theorem markPassRecovered_ok (hholds : Holds db)
    (h : markPassRecovered db ctxTenant passId tenantId = .ok db') :
    Holds db' ∧ holder db' = holder db ∧ heldPass db' = heldPass db := by
  obtain ⟨pass, hlock, h⟩ := bind_eq_ok.mp h
  obtain ⟨_, hpass, htenant⟩ := lockOwnPass_eq_ok.mp hlock
  split at h
  · rename_i hlost
    obtain rfl := Except.ok.inj h
    have hcurrent := hholds.current_eq_none hpass (by simp [hlost])
    refine ⟨hholds.setPass fun p hp _ => ?_, ?_, rfl⟩
    · rw [hpass] at hp
      obtain rfl := Option.some.inj hp
      exact PassHolds.of_none hcurrent
    · refine holder_setPass_same hpass htenant ?_
      simp [PassRow.holder, makeAvailable, hlost]
  · cases h

end

/-! ## The law -/

def AssignsFree (db : PassDb) (call : PassCall) : Prop :=
  match call.action with
  | .assignPass _ visitorId _ => (∃ db', perform db call = .ok db') → heldPass db visitorId = none
  | _ => True

section

variable {db db' : PassDb} {call : PassCall}

theorem tx_of_ok (h : perform db call = .ok db') : tx db call = db' := by
  unfold tx
  rw [h]

theorem tx_of_error {e : PassError} (h : perform db call = .error e) : tx db call = db := by
  unfold tx
  rw [h]

theorem Freed.linked {passId : Nat} (h : Freed db db' passId) (hlinked : Linked db) :
    Linked db' := by
  unfold Linked at hlinked ⊢
  rcases h with ⟨visitorId, hholder, hpasses, hvisitors⟩ | ⟨hpasses, hvisitors⟩
  · rw [hpasses, hvisitors]
    exact hlinked.unlink hholder
  · rw [hpasses, hvisitors]
    exact hlinked

/-- A call keeps what the pool looks like, and keeps the law exactly when it assigns a pass to a
visitor without one. -/
theorem perform_ok (hholds : Holds db) (h : perform db call = .ok db') :
    Holds db' ∧ (Linked db → (Linked db' ↔ AssignsFree db call)) := by
  have hsuccess : ∃ db', perform db call = .ok db' := ⟨db', h⟩
  unfold AssignsFree
  unfold perform at h
  cases haction : call.action with
  | assignPass passId visitorId now =>
    rw [haction] at h
    obtain ⟨hholds', hfree, hpasses, hvisitors⟩ := assignPass_ok hholds h
    refine ⟨hholds', fun hlinked => ?_⟩
    unfold Linked at hlinked ⊢
    rw [hpasses, hvisitors, hlinked.link_iff hfree]
    exact ⟨fun hnone _ => hnone, fun hcond => hcond hsuccess⟩
  | reservePass passId visitorId =>
    rw [haction] at h
    obtain ⟨hholds', hsame⟩ := reservePass_ok hholds h
    have hfreed : Freed db db' passId := Or.inr hsame
    exact ⟨hholds', fun hlinked => iff_of_true (hfreed.linked hlinked) trivial⟩
  | returnPass passId =>
    rw [haction] at h
    obtain ⟨hholds', hfreed⟩ := returnPass_ok hholds h
    exact ⟨hholds', fun hlinked => iff_of_true (hfreed.linked hlinked) trivial⟩
  | markPassMissing passId reason =>
    rw [haction] at h
    obtain ⟨hholds', hfreed⟩ := markPassMissing_ok hholds h
    exact ⟨hholds', fun hlinked => iff_of_true (hfreed.linked hlinked) trivial⟩
  | markPassRecovered passId =>
    rw [haction] at h
    obtain ⟨hholds', hsame⟩ := markPassRecovered_ok hholds h
    have hfreed : Freed db db' passId := Or.inr hsame
    exact ⟨hholds', fun hlinked => iff_of_true (hfreed.linked hlinked) trivial⟩

theorem assignsFree_of_error {e : PassError} (h : perform db call = .error e) :
    AssignsFree db call := by
  unfold AssignsFree
  split
  · rintro ⟨db', hok⟩
    rw [h] at hok
    cases hok
  · trivial

theorem holds_tx (hholds : Holds db) (call : PassCall) : Holds (tx db call) := by
  cases h : perform db call with
  | error e =>
    rw [tx_of_error h]
    exact hholds
  | ok db' =>
    rw [tx_of_ok h]
    exact (perform_ok hholds h).1

theorem linked_tx_iff (hlinked : Linked db) (hholds : Holds db) (call : PassCall) :
    Linked (tx db call) ↔ AssignsFree db call := by
  cases h : perform db call with
  | error e =>
    rw [tx_of_error h]
    exact iff_of_true hlinked (assignsFree_of_error h)
  | ok db' =>
    rw [tx_of_ok h]
    exact (perform_ok hholds h).2 hlinked

end

/-- In every state of a run a pass is in use with a visitor exactly when the visitor names it, so
that nobody has two passes and no pass has two visitors; a refused call changes nothing. -/
structure RunLinked (db : PassDb) (calls : List PassCall) : Prop where
  linked : ∀ pre post, calls = pre ++ post → Linked (run tx db pre)
  one_pass : ∀ pre post, calls = pre ++ post → ∀ passId passId' visitorId,
    holder (run tx db pre) passId = some visitorId →
      holder (run tx db pre) passId' = some visitorId → passId = passId'
  one_visitor : ∀ pre post, calls = pre ++ post → ∀ visitorId visitorId' passId,
    heldPass (run tx db pre) visitorId = some passId →
      heldPass (run tx db pre) visitorId' = some passId → visitorId = visitorId'
  refused : ∀ pre call post, calls = pre ++ call :: post → ∀ e,
    perform (run tx db pre) call = .error e → run tx db (pre ++ [call]) = run tx db pre

/-- From a pool that agrees with its visitors, a run keeps them in agreement exactly when each pass
that is handed out goes to a visitor who has none. -/
theorem runLinked_iff {db : PassDb} (hholds : Holds db) (hlinked : Linked db)
    (calls : List PassCall) : RunLinked db calls ↔ Guarded tx AssignsFree db calls := by
  have hpool : Guarded tx (fun db _ => Holds db) db calls :=
    guarded_iff.mpr fun pre _ _ _ =>
      run_invariant (I := Holds) (fun _ call hholds => holds_tx hholds call) hholds pre
  have hlaw : (∀ pre post, calls = pre ++ post → Linked (run tx db pre)) ↔
      Guarded tx AssignsFree db calls :=
    invariant_iff_guarded (P := fun db _ => Holds db)
      (fun _ call hlinked hholds => linked_tx_iff hlinked hholds call) hlinked hpool
  rw [← hlaw]
  constructor
  · exact fun h => h.linked
  · intro h
    refine ⟨h, ?_, ?_, ?_⟩
    · intro pre post hsplit passId passId' visitorId
      exact (h pre post hsplit).injective
    · intro pre post hsplit visitorId visitorId' passId
      exact (h pre post hsplit).symm.injective
    · intro pre call post _ e herror
      rw [run_append]
      exact tx_of_error herror

def desk : PassDb where
  passes := ⟨[{ id := 1, tenantId := 1, passNumber := "A1" },
    { id := 2, tenantId := 1, passNumber := "A2" }], by decide⟩
  visitors := ⟨[{ id := 11, tenantId := 1 }, { id := 12, tenantId := 1 }], by decide⟩

theorem holds_desk : Holds desk := by
  intro passId p hp
  have hmem : p ∈ desk.passes.rows := (Table.get?_eq_some.mp hp).1
  have hfree : ∀ p ∈ desk.passes.rows, p.currentVisitorId = none := by decide
  exact PassHolds.of_none (hfree p hmem)

theorem linked_desk : Linked desk := by
  intro passId visitorId
  have hholder : holder desk passId = none := by
    unfold holder
    cases hp : desk.passes.get? passId with
    | none => rfl
    | some p =>
      have hfree : ∀ p ∈ desk.passes.rows, p.holder = none := by decide
      exact hfree p (Table.get?_eq_some.mp hp).1
  have hheld : heldPass desk visitorId = none := by
    unfold heldPass
    cases hv : desk.visitors.get? visitorId with
    | none => rfl
    | some v =>
      have hfree : ∀ v ∈ desk.visitors.rows, v.visitorPassId = none := by decide
      exact hfree v (Table.get?_eq_some.mp hv).1
  rw [hholder, hheld]
  exact iff_of_false nofun nofun

/-- A visit: the pass is handed out and comes back. -/
def visit : List PassCall :=
  [{ ctxTenant := 1, tenantId := 1, action := .assignPass 1 11 540 },
    { ctxTenant := 1, tenantId := 1, action := .returnPass 1 }]

theorem visit_linked : RunLinked desk visit :=
  (runLinked_iff holds_desk linked_desk visit).mpr ⟨fun _ => by decide, trivial, trivial⟩

def secondPass : List PassCall :=
  [{ ctxTenant := 1, tenantId := 1, action := .assignPass 1 11 540 },
    { ctxTenant := 1, tenantId := 1, action := .assignPass 2 11 545 }]

/-- Both passes are in use with the visitor, who names the second one only. -/
theorem secondPass_unlinked : Holds desk ∧ Linked desk ∧ ¬RunLinked desk secondPass := by
  refine ⟨holds_desk, linked_desk, fun h => ?_⟩
  have hboth := h.one_pass secondPass [] rfl 1 2 11 (by decide) (by decide)
  cases hboth

end Prequest.Visitors
