import Prequest.Lib.Table

/-!
# The `command_operations` gate

Every combined command of the database opens with the same gate. It looks up
the caller's idempotency key, answers a repeated call from the recorded result,
refuses a key that was used with another payload, and otherwise records an
`in_progress` marker that the end of the command turns into `success`.

The hash column holds `md5` of the payload's text. The model stores the payload
itself there, so two hashes are equal exactly when the payloads are.

* `get?_finish_begin`: the rows after a command.
-/

namespace Prequest.Command

open Prequest.Lib

/-- The `outcome` column with `cached_result`, which is set exactly on success. A failed
command leaves no row, so there is no third value. -/
inductive Outcome (R : Type) where
  | inProgress
  | success (cachedResult : R)
  deriving DecidableEq, Repr

def Outcome.map {R S : Type} (f : R → S) : Outcome R → Outcome S
  | .inProgress => .inProgress
  | .success result => .success (f result)

/-- A row of `command_operations` for commands with keys `K`, payload `P` and result `R`. -/
structure CommandOperation (K P R : Type) where
  idempotencyKey : K
  payloadHash : P
  outcome : Outcome R
  deriving DecidableEq, Repr

instance {K P R : Type} : Keyed (CommandOperation K P R) K where
  key := CommandOperation.idempotencyKey

/-- The two ways the gate raises. -/
inductive GateError where
  | payloadMismatch
  | unexpectedState
  deriving DecidableEq, Repr

/-- The text of the exception. -/
def GateError.message : GateError → String
  | .payloadMismatch => "command_operations.payload_mismatch"
  | .unexpectedState => "command_operations.unexpected_state outcome=in_progress hash_match=true"

/-- What the gate tells the command to do. -/
inductive GateAnswer (R : Type) where
  | cached (result : R)
  | proceed
  deriving DecidableEq, Repr

section

variable {K P R : Type} [DecidableEq K] [DecidableEq P]

/-- The lookup of the caller's key before the command does anything. -/
def gate (ops : Table (CommandOperation K P R)) (idempotencyKey : K) (payload : P) :
    Except GateError (GateAnswer R) :=
  match ops.get? idempotencyKey with
  | none => .ok .proceed
  | some existing =>
      if existing.payloadHash ≠ payload then
        .error .payloadMismatch
      else match existing.outcome with
        | .success result => .ok (.cached result)
        | .inProgress => .error .unexpectedState

variable {ops : Table (CommandOperation K P R)} {k : K} {payload : P}

theorem gate_eq_proceed : gate ops k payload = .ok .proceed ↔ ops.get? k = none := by
  unfold gate
  cases ops.get? k with
  | none => simp
  | some existing =>
    simp only [reduceCtorEq, iff_false]
    split_ifs
    · simp
    · cases existing.outcome <;> simp

variable {result : R}

theorem gate_eq_cached : gate ops k payload = .ok (.cached result) ↔
      ops.get? k = some ⟨k, payload, .success result⟩ := by
  unfold gate
  cases hget : ops.get? k with
  | none => simp
  | some existing =>
    have hkey : existing.idempotencyKey = k := (Table.get?_eq_some.mp hget).2
    obtain ⟨key, hash, outcome⟩ := existing
    obtain rfl : key = k := hkey
    simp only [Option.some.injEq, CommandOperation.mk.injEq, true_and]
    split_ifs with hpayload
    · simp [hpayload]
    · cases outcome <;> simp_all

theorem gate_of_success {recorded : P}
    (h : ops.get? k = some ⟨k, recorded, .success result⟩) (payload : P) :
    gate ops k payload =
      if payload = recorded then .ok (.cached result) else .error .payloadMismatch := by
  unfold gate
  rw [h]
  by_cases hsame : payload = recorded
  · rw [if_pos hsame, hsame]
    simp
  · rw [if_neg hsame]
    exact if_pos (Ne.symm hsame)

omit [DecidableEq P] in
/-- The marker inserted once the gate lets the command through. -/
def begin (ops : Table (CommandOperation K P R)) (idempotencyKey : K) (payload : P) :
    Table (CommandOperation K P R) :=
  ops.put
    { idempotencyKey := idempotencyKey, payloadHash := payload,
      outcome := .inProgress }

omit [DecidableEq P] in
def finish (ops : Table (CommandOperation K P R)) (idempotencyKey : K) (result : R) :
    Table (CommandOperation K P R) :=
  ops.update (fun o => o.idempotencyKey == idempotencyKey)
    ⟨fun o => { o with outcome := .success result }, fun _ => rfl⟩

omit [DecidableEq P] in
theorem get?_finish_begin (h : ops.get? k = none) (k' : K) :
    (finish (begin ops k payload) k result).get? k' =
      if k' = k then some ⟨k, payload, .success result⟩ else ops.get? k' := by
  have hbegin : (begin ops k payload).get? k' =
      if k' = k then some ⟨k, payload, .inProgress⟩ else ops.get? k' := Table.get?_put h k'
  simp only [finish, Table.get?_update, hbegin]
  by_cases hk : k' = k
  · simp [hk, Table.updated]
  · rw [if_neg hk, if_neg hk]
    rcases Option.eq_none_or_eq_some (ops.get? k') with hget | ⟨op, hget⟩
    · simp [hget]
    · have hkey : op.idempotencyKey = k' := (Table.get?_eq_some.mp hget).2
      simp [hget, Table.updated, hkey, hk]

end

end Prequest.Command
