import Prequest.Approval.TicketGrant
import Prequest.Booking.Cancel
import Prequest.Booking.Split
import Prequest.Command.Recording

/-!
# The gate over a sequence of commands

`cancel_booking_with_cascade`, `split_recurrence_series` and `grant_ticket_approval` share
one table of idempotency keys. A key that a call succeeded under answers every later call with
the same payload, refuses every call with another one, and a call that raises is rolled back.

* `settles_commands`: the three functions settle their keys.
-/

namespace Prequest.Booking

open Prequest.Lib Prequest.Approval Prequest.Command

/-! ## One function -/

/-- A success is recorded under its key, the other records stay, and no other key is new. -/
structure Records {P R : Type} (ops ops' : Table (CommandOperation String P R)) (key : String)
    (payload : P) (result : R) : Prop where
  own : ops'.get? key = some ⟨key, payload, .success result⟩
  others : ∀ k op, ops.get? k = some op → ops'.get? k = some op
  unused : ∀ k, k ≠ key → ops.get? k = none → ops'.get? k = none

theorem Records.cached {P R : Type} {ops : Table (CommandOperation String P R)} {key : String}
    {payload : P} {result : R} (h : ops.get? key = some ⟨key, payload, .success result⟩) :
    Records ops ops key payload result :=
  ⟨h, fun _ _ hget => hget, fun _ _ hnone => hnone⟩

theorem Records.finished {P R : Type} {ops : Table (CommandOperation String P R)} {key : String}
    {payload : P} {result : R} (h : ops.get? key = none) :
    Records ops (finish (begin ops key payload) key result) key payload result where
  own := by rw [get?_finish_begin h, if_pos rfl]
  others k op hget := by
    rw [get?_finish_begin h, if_neg, hget]
    rintro rfl
    rw [h] at hget
    cases hget
  unused k hk hnone := by rw [get?_finish_begin h, if_neg hk, hnone]

/-- The user behind the caller's login is there, if the caller has one. -/
def KnownActor (userOf : Nat → Option Nat) (actorUserId : Option Nat) : Prop :=
  ∀ authUid, actorUserId = some authUid → (userOf authUid).isSome = true

theorem knownActor_none {userOf : Nat → Option Nat} : KnownActor userOf none := by
  intro uid huid
  cases huid

theorem knownActor_some {userOf : Nat → Option Nat} {authUid : Nat}
    (h : ¬(userOf authUid).isNone = true) : KnownActor userOf (some authUid) := by
  intro uid huid
  obtain rfl := Option.some.inj huid
  rw [Option.isSome_iff_ne_none]
  simpa using h

section

variable {store store' : BookingStore} {result : BookingResult}

theorem cancelGated_records {call : CancelCall} {scope : CancelScope}
    (h : cancelBookingWithCascade.gated store call scope = .ok (store', result)) :
    Records store.operations store'.operations call.idempotencyKey (cancelPayload call scope)
      result := by
  simp only [cancelBookingWithCascade.gated] at h
  split at h
  · cases h
  · rename_i hgate
    cases h
    exact .cached (gate_eq_cached.mp hgate)
  · rename_i hgate
    split at h
    · cases h
    · cases h
      exact .finished (gate_eq_proceed.mp hgate)

theorem cancelBooking_records {call : CancelCall}
    (h : cancelBookingWithCascade store call = .ok (store', result)) :
    ∃ scope, parseScope call.scope = some scope ∧ call.idempotencyKey ≠ "" ∧
      KnownActor call.env.userOf call.actorUserId ∧
      Records store.operations store'.operations call.idempotencyKey (cancelPayload call scope)
        result := by
  simp only [cancelBookingWithCascade] at h
  split at h
  · cases h
  rename_i hkey
  split at h
  · cases h
  rename_i scope hscope
  split at h
  · rename_i authUid hactor
    split at h
    · cases h
    · rename_i hknown
      refine ⟨scope, hscope, hkey, ?_, cancelGated_records h⟩
      rw [hactor]
      exact knownActor_some hknown
  · rename_i hactor
    refine ⟨scope, hscope, hkey, ?_, cancelGated_records h⟩
    rw [hactor]
    exact knownActor_none

theorem cancelBooking_answers (call : CancelCall) {scope : CancelScope}
    (hscope : parseScope call.scope = some scope) (hkey : call.idempotencyKey ≠ "")
    (hknown : KnownActor call.env.userOf call.actorUserId)
    (h : store.operations.get? call.idempotencyKey =
      some ⟨call.idempotencyKey, cancelPayload call scope, .success result⟩) :
    cancelBookingWithCascade store call = .ok (store, result) := by
  have hgated : cancelBookingWithCascade.gated store call scope = .ok (store, result) := by
    simp only [cancelBookingWithCascade.gated, gate_eq_cached.mpr h]
  cases hactor : call.actorUserId with
  | none => simp [cancelBookingWithCascade, hkey, hscope, hactor, hgated]
  | some authUid =>
    have hsome := hknown authUid hactor
    simp [cancelBookingWithCascade, hkey, hscope, hactor, hgated, Option.ne_none_iff_isSome, hsome]

theorem splitGated_records {call : SplitCall}
    (h : splitRecurrenceSeries.gated store call = .ok (store', result)) :
    Records store.operations store'.operations call.idempotencyKey (splitPayload call) result := by
  simp only [splitRecurrenceSeries.gated] at h
  split at h
  · cases h
  · rename_i hgate
    cases h
    exact .cached (gate_eq_cached.mp hgate)
  · rename_i hgate
    split at h
    · cases h
    · cases h
      exact .finished (gate_eq_proceed.mp hgate)

theorem splitSeries_records {call : SplitCall}
    (h : splitRecurrenceSeries store call = .ok (store', result)) :
    call.idempotencyKey ≠ "" ∧ KnownActor call.env.userOf call.actorUserId ∧
      Records store.operations store'.operations call.idempotencyKey (splitPayload call) result := by
  simp only [splitRecurrenceSeries] at h
  split at h
  · cases h
  rename_i hkey
  split at h
  · rename_i authUid hactor
    split at h
    · cases h
    · rename_i hknown
      refine ⟨hkey, ?_, splitGated_records h⟩
      rw [hactor]
      exact knownActor_some hknown
  · rename_i hactor
    refine ⟨hkey, ?_, splitGated_records h⟩
    rw [hactor]
    exact knownActor_none

theorem splitSeries_answers (call : SplitCall) (hkey : call.idempotencyKey ≠ "")
    (hknown : KnownActor call.env.userOf call.actorUserId)
    (h : store.operations.get? call.idempotencyKey =
      some ⟨call.idempotencyKey, splitPayload call, .success result⟩) :
    splitRecurrenceSeries store call = .ok (store, result) := by
  have hgated : splitRecurrenceSeries.gated store call = .ok (store, result) := by
    simp only [splitRecurrenceSeries.gated, gate_eq_cached.mpr h]
  cases hactor : call.actorUserId with
  | none => simp [splitRecurrenceSeries, hkey, hactor, hgated]
  | some authUid =>
    have hsome := hknown authUid hactor
    simp [splitRecurrenceSeries, hkey, hactor, hgated, Option.ne_none_iff_isSome, hsome]

end

section

variable {db db' : TicketDb} {call : GrantCall} {result : GrantResult}

theorem grantTicket_records (h : grantTicketApproval db call = .ok (db', result)) :
    Records db.commandOperations db'.commandOperations call.idempotencyKey call.payload result := by
  cases grantTicketApproval_cases h with
  | cached hgate => exact .cached (gate_eq_cached.mp hgate)
  | refused hadmitted => exact .finished hadmitted.hgate
  | partialApproved hanswers => exact .finished hanswers.hgate
  | decided hanswers => exact .finished hanswers.hgate

theorem grantTicket_admitted (h : grantTicketApproval db call = .ok (db', result)) :
    call.idempotencyKey ≠ "" ∧ call.payload.parseDecision.isSome = true := by
  unfold grantTicketApproval at h
  split at h
  · cases h
  rename_i hparse
  split at h
  · cases h
  · rename_i hkey
    rw [hparse]
    exact ⟨hkey, rfl⟩

theorem grantTicket_users (h : grantTicketApproval db call = .ok (db', result)) :
    db'.users = db.users := by
  cases grantTicketApproval_cases h <;> rfl

theorem grantTicket_answers (hkey : call.idempotencyKey ≠ "")
    (hparse : call.payload.parseDecision.isSome = true)
    (h : db.commandOperations.get? call.idempotencyKey =
      some ⟨call.idempotencyKey, call.payload, .success result⟩) :
    grantTicketApproval db call = .ok (db, result) := by
  obtain ⟨decision, hdecision⟩ := Option.isSome_iff_exists.mp hparse
  simp only [grantTicketApproval, if_neg hkey, hdecision, gate_eq_cached.mpr h]

end

/-! ## The three functions on one table -/

/-- The tables of the functions. Their records stand in one table, which is kept here in two parts:
those of the functions on bookings and those of `grant_ticket_approval`. -/
structure CommandWorld where
  booking : BookingStore
  tickets : TicketDb

/-- The lookup of `public.users` by `auth_uid`. -/
def CommandWorld.userOf (w : CommandWorld) (authUid : Nat) : Option Nat :=
  (w.tickets.users.find? fun u => u.authUid == authUid).map UserRow.id

inductive CommandCall where
  | cancel (call : CancelCall)
  | split (call : SplitCall)
  | grant (call : GrantCall)

/-- What the hash of a call is taken of: the arguments joined by bars, or a JSON object. -/
inductive CommandPayload where
  | booking (payload : BookingPayload)
  | ticket (payload : GrantPayload)
  deriving DecidableEq

inductive CommandResult where
  | booking (result : BookingResult)
  | ticket (result : GrantResult)
  deriving DecidableEq

inductive CommandError where
  | cancel (e : CancelError)
  | split (e : SplitError)
  | grant (e : GrantError)
  | payloadMismatch

def CommandCall.key : CommandCall → String
  | .cancel call => call.idempotencyKey
  | .split call => call.idempotencyKey
  | .grant call => call.idempotencyKey

/-- The payload of a call. A scope that is none of the three is refused before the hash is taken. -/
def CommandCall.payload : CommandCall → Option CommandPayload
  | .cancel call => (parseScope call.scope).map fun scope => .booking (cancelPayload call scope)
  | .split call => some (.booking (splitPayload call))
  | .grant call => some (.ticket call.payload)

/-- One call. A key that is recorded by a function of the other kind is refused: its hash is of
another text. The gate comes after the checks of the arguments, which raise as well. -/
def CommandWorld.exec (w : CommandWorld) :
    CommandCall → Except CommandError (CommandWorld × CommandResult)
  | .cancel call =>
      if (w.tickets.commandOperations.get? call.idempotencyKey).isSome then .error .payloadMismatch
      else match cancelBookingWithCascade w.booking
          { call with env := { call.env with userOf := w.userOf } } with
        | .error e => .error (.cancel e)
        | .ok (booking, result) => .ok ({ w with booking := booking }, .booking result)
  | .split call =>
      if (w.tickets.commandOperations.get? call.idempotencyKey).isSome then .error .payloadMismatch
      else match splitRecurrenceSeries w.booking
          { call with env := { call.env with userOf := w.userOf } } with
        | .error e => .error (.split e)
        | .ok (booking, result) => .ok ({ w with booking := booking }, .booking result)
  | .grant call =>
      if (w.booking.operations.get? call.idempotencyKey).isSome then .error .payloadMismatch
      else match grantTicketApproval w.tickets call with
        | .error e => .error (.grant e)
        | .ok (tickets, result) => .ok ({ w with tickets := tickets }, .ticket result)

def CommandWorld.record (w : CommandWorld) (key : String) :
    Option (CommandPayload × Outcome CommandResult) :=
  match w.booking.operations.get? key with
  | some op => some (.booking op.payloadHash, Outcome.map .booking op.outcome)
  | none => (w.tickets.commandOperations.get? key).map fun op =>
      (.ticket op.payloadHash, Outcome.map .ticket op.outcome)

def commands :
    Recording CommandWorld CommandCall String CommandPayload CommandResult CommandError where
  exec := CommandWorld.exec
  keyOf := CommandCall.key
  payloadOf := CommandCall.payload

/-- An input of a sequence: a call, or writes of other transactions to tables that hold neither keys
nor users. -/
inductive CommandInput where
  | call (c : CommandCall)
  | others (booking : BookingStore) (tickets : TicketDb)

/-- A call that raises is rolled back. -/
def CommandWorld.step (w : CommandWorld) : CommandInput → CommandWorld
  | .call c =>
      match w.exec c with
      | .error _ => w
      | .ok (after, _) => after
  | .others booking tickets =>
      { booking := { booking with operations := w.booking.operations }
        tickets := { tickets with
          commandOperations := w.tickets.commandOperations
          users := w.tickets.users } }

/-! ## Settled keys -/

def PayloadKnown (w : CommandWorld) : CommandPayload → Prop
  | .booking (.cancel _ actorUserId _ _ _) => KnownActor w.userOf actorUserId
  | .booking (.split _ actorUserId) => KnownActor w.userOf actorUserId
  | .booking _ => True
  | .ticket payload => payload.parseDecision.isSome = true

/-- The key is recorded by one kind of function, and not by the other. -/
def RecordedAs (w : CommandWorld) (key : String) : CommandPayload → CommandResult → Prop
  | .booking payload, .booking result =>
      w.booking.operations.get? key = some ⟨key, payload, .success result⟩ ∧
        w.tickets.commandOperations.get? key = none
  | .ticket payload, .ticket result =>
      w.tickets.commandOperations.get? key = some ⟨key, payload, .success result⟩ ∧
        w.booking.operations.get? key = none
  | _, _ => False

structure Settled (w : CommandWorld) (key : String) (payload : CommandPayload)
    (result : CommandResult) : Prop where
  nonempty : key ≠ ""
  known : PayloadKnown w payload
  recorded : RecordedAs w key payload result

section

variable {w w' : CommandWorld} {c : CommandCall} {result : CommandResult}

/-- The three ways a call ends without raising. -/
inductive ExecOk (w : CommandWorld) : CommandCall → CommandWorld → CommandResult → Prop where
  | cancel {call : CancelCall} {booking : BookingStore} {result : BookingResult}
      (hfree : w.tickets.commandOperations.get? (CommandCall.cancel call).key = none)
      (hcall : cancelBookingWithCascade w.booking
        { call with env := { call.env with userOf := w.userOf } } = .ok (booking, result)) :
      ExecOk w (.cancel call) { w with booking := booking } (.booking result)
  | split {call : SplitCall} {booking : BookingStore} {result : BookingResult}
      (hfree : w.tickets.commandOperations.get? (CommandCall.split call).key = none)
      (hcall : splitRecurrenceSeries w.booking
        { call with env := { call.env with userOf := w.userOf } } = .ok (booking, result)) :
      ExecOk w (.split call) { w with booking := booking } (.booking result)
  | grant {call : GrantCall} {tickets : TicketDb} {result : GrantResult}
      (hfree : w.booking.operations.get? (CommandCall.grant call).key = none)
      (hcall : grantTicketApproval w.tickets call = .ok (tickets, result)) :
      ExecOk w (.grant call) { w with tickets := tickets } (.ticket result)

theorem exec_ok (h : w.exec c = .ok (w', result)) : ExecOk w c w' result := by
  cases c with
  | cancel call =>
    simp only [CommandWorld.exec] at h
    split at h
    · cases h
    · rename_i hfree
      split at h
      · cases h
      · rename_i hcall
        cases h
        exact .cancel (Option.not_isSome_iff_eq_none.mp hfree) hcall
  | split call =>
    simp only [CommandWorld.exec] at h
    split at h
    · cases h
    · rename_i hfree
      split at h
      · cases h
      · rename_i hcall
        cases h
        exact .split (Option.not_isSome_iff_eq_none.mp hfree) hcall
  | grant call =>
    simp only [CommandWorld.exec] at h
    split at h
    · cases h
    · rename_i hfree
      split at h
      · cases h
      · rename_i hcall
        cases h
        exact .grant (Option.not_isSome_iff_eq_none.mp hfree) hcall

theorem exec_settles (h : w.exec c = .ok (w', result)) :
    ∃ p, c.payload = some p ∧ Settled w' c.key p result := by
  cases exec_ok h with
  | cancel hfree hcall =>
    obtain ⟨scope, hscope, hkey, hknown, hrecords⟩ := cancelBooking_records hcall
    have hscope' : parseScope _ = some scope := hscope
    refine ⟨.booking (cancelPayload _ scope), ?_, hkey, hknown, hrecords.own, hfree⟩
    simp only [CommandCall.payload, hscope', Option.map_some]
    rfl
  | split hfree hcall =>
    obtain ⟨hkey, hknown, hrecords⟩ := splitSeries_records hcall
    exact ⟨_, rfl, hkey, hknown, hrecords.own, hfree⟩
  | grant hfree hcall =>
    obtain ⟨hkey, hparse⟩ := grantTicket_admitted hcall
    exact ⟨_, rfl, hkey, hparse, (grantTicket_records hcall).own, hfree⟩

variable {p : CommandPayload}

theorem payloadKnown_of_users (husers : w'.tickets.users = w.tickets.users)
    (h : PayloadKnown w p) : PayloadKnown w' p := by
  have hsame : w'.userOf = w.userOf := by
    funext authUid
    unfold CommandWorld.userOf
    rw [husers]
  unfold PayloadKnown at h ⊢
  rw [hsame]
  exact h

variable {key : String} {result₀ : CommandResult}

theorem RecordedAs.booking {callKey : String}
    {payload : BookingPayload} {result : BookingResult} {booking : BookingStore}
    (h : RecordedAs w key p result₀) (hfree : w.tickets.commandOperations.get? callKey = none)
    (hrecords : Records w.booking.operations booking.operations callKey payload result) :
    RecordedAs { w with booking := booking } key p result₀ := by
  cases p with
  | booking payload₀ =>
    cases result₀ with
    | booking r => exact ⟨hrecords.others _ _ h.1, h.2⟩
    | ticket r => exact h.elim
  | ticket payload₀ =>
    cases result₀ with
    | booking r => exact h.elim
    | ticket r =>
      refine ⟨h.1, hrecords.unused key ?_ h.2⟩
      rintro rfl
      rw [h.1] at hfree
      cases hfree

theorem RecordedAs.tickets {callKey : String}
    {payload : GrantPayload} {result : GrantResult} {tickets : TicketDb}
    (h : RecordedAs w key p result₀) (hfree : w.booking.operations.get? callKey = none)
    (hrecords : Records w.tickets.commandOperations tickets.commandOperations callKey payload
      result) :
    RecordedAs { w with tickets := tickets } key p result₀ := by
  cases p with
  | booking payload₀ =>
    cases result₀ with
    | booking r =>
      refine ⟨h.1, hrecords.unused key ?_ h.2⟩
      rintro rfl
      rw [h.1] at hfree
      cases hfree
    | ticket r => exact h.elim
  | ticket payload₀ =>
    cases result₀ with
    | booking r => exact h.elim
    | ticket r => exact ⟨hrecords.others _ _ h.1, h.2⟩

theorem exec_keeps (hsettled : Settled w key p result₀) (h : w.exec c = .ok (w', result)) :
    Settled w' key p result₀ := by
  obtain ⟨hkey, hknown, hrecorded⟩ := hsettled
  cases exec_ok h with
  | cancel hfree hcall =>
    obtain ⟨_, _, _, _, hrecords⟩ := cancelBooking_records hcall
    exact ⟨hkey, payloadKnown_of_users rfl hknown, hrecorded.booking hfree hrecords⟩
  | split hfree hcall =>
    obtain ⟨_, _, hrecords⟩ := splitSeries_records hcall
    exact ⟨hkey, payloadKnown_of_users rfl hknown, hrecorded.booking hfree hrecords⟩
  | grant hfree hcall =>
    exact ⟨hkey, payloadKnown_of_users (grantTicket_users hcall) hknown,
      hrecorded.tickets hfree (grantTicket_records hcall)⟩

theorem step_keeps {input : CommandInput} (hsettled : Settled w key p result₀) :
    Settled (w.step input) key p result₀ := by
  cases input with
  | call c =>
    simp only [CommandWorld.step]
    split
    · exact hsettled
    · rename_i hexec
      exact exec_keeps hsettled hexec
  | others booking tickets =>
    obtain ⟨hkey, hknown, hrecorded⟩ := hsettled
    refine ⟨hkey, payloadKnown_of_users rfl hknown, ?_⟩
    cases p <;> cases result₀ <;> exact hrecorded

theorem exec_answers (hsettled : Settled w c.key p result₀) (hpayload : c.payload = some p) :
    w.exec c = .ok (w, result₀) := by
  obtain ⟨hkey, hknown, hrecorded⟩ := hsettled
  cases c with
  | cancel call =>
    obtain ⟨scope, hscope, rfl⟩ := Option.map_eq_some_iff.mp hpayload
    cases result₀ with
    | ticket r => exact hrecorded.elim
    | booking r =>
      have hanswer := cancelBooking_answers
        { call with env := { call.env with userOf := w.userOf } } hscope hkey hknown
        hrecorded.1
      have hfree : w.tickets.commandOperations.get? call.idempotencyKey = none := hrecorded.2
      simp only [CommandWorld.exec, hfree, Option.isSome_none, Bool.false_eq_true, if_false,
        hanswer]
  | split call =>
    obtain rfl := Option.some.inj hpayload
    cases result₀ with
    | ticket r => exact hrecorded.elim
    | booking r =>
      have hanswer := splitSeries_answers
        { call with env := { call.env with userOf := w.userOf } } hkey hknown
        hrecorded.1
      have hfree : w.tickets.commandOperations.get? call.idempotencyKey = none := hrecorded.2
      simp only [CommandWorld.exec, hfree, Option.isSome_none, Bool.false_eq_true, if_false,
        hanswer]
  | grant call =>
    obtain rfl := Option.some.inj hpayload
    cases result₀ with
    | booking r => exact hrecorded.elim
    | ticket r =>
      have hanswer := grantTicket_answers hkey hknown hrecorded.1
      have hfree : w.booking.operations.get? call.idempotencyKey = none := hrecorded.2
      simp only [CommandWorld.exec, hfree, Option.isSome_none, Bool.false_eq_true, if_false,
        hanswer]

end

theorem settles_commands : Settles commands Settled where
  settles := exec_settles
  keeps := exec_keeps
  answers := exec_answers

/-! ## The law -/

section

variable {w w' : CommandWorld} {c : CommandCall} {result : CommandResult}

theorem record_of_settled {key : String} {p : CommandPayload} (h : Settled w key p result) :
    w.record key = some (p, .success result) := by
  obtain ⟨_, _, hrecorded⟩ := h
  cases p with
  | booking payload =>
    cases result with
    | booking r => simp [CommandWorld.record, hrecorded.1, Outcome.map]
    | ticket r => exact hrecorded.elim
  | ticket payload =>
    cases result with
    | booking r => exact hrecorded.elim
    | ticket r => simp [CommandWorld.record, hrecorded.1, hrecorded.2, Outcome.map]

theorem Records.payload_eq {P R : Type} {ops ops' : Table (CommandOperation String P R)}
    {key : String} {payload : P} {result : R} (h : Records ops ops' key payload result)
    {op : CommandOperation String P R} (hget : ops.get? key = some op) :
    op.payloadHash = payload := by
  have hown := h.own
  rw [h.others key op hget] at hown
  exact congrArg CommandOperation.payloadHash (Option.some.inj hown)

theorem payload_of_record {p : CommandPayload} {outcome : Outcome CommandResult}
    (h : w.exec c = .ok (w', result)) (hrecord : w.record c.key = some (p, outcome)) :
    c.payload = some p := by
  cases exec_ok h with
  | cancel hfree hcall =>
    obtain ⟨scope, hscope, _, _, hrecords⟩ := cancelBooking_records hcall
    have hscope' : parseScope _ = some scope := hscope
    unfold CommandWorld.record at hrecord
    split at hrecord
    · rename_i op hget
      cases hrecord
      simp only [CommandCall.payload, hscope', Option.map_some, hrecords.payload_eq hget]
      rfl
    · rw [hfree] at hrecord
      cases hrecord
  | split hfree hcall =>
    obtain ⟨_, _, hrecords⟩ := splitSeries_records hcall
    unfold CommandWorld.record at hrecord
    split at hrecord
    · rename_i op hget
      cases hrecord
      rw [hrecords.payload_eq hget]
      rfl
    · rw [hfree] at hrecord
      cases hrecord
  | grant hfree hcall =>
    unfold CommandWorld.record at hrecord
    rw [hfree] at hrecord
    obtain ⟨op, hget, hop⟩ := Option.map_eq_some_iff.mp hrecord
    cases hop
    rw [(grantTicket_records hcall).payload_eq hget]
    rfl

theorem step_of_error {e : CommandError} (h : w.exec c = .error e) : w.step (.call c) = w := by
  simp only [CommandWorld.step, h]

end

/-- The law of a sequence of inputs. A call without a record of its key is executed as new. -/
structure GateLaw (w : CommandWorld) (inputs : List CommandInput) : Prop where
  records : ∀ pre c post w' result, inputs = pre ++ .call c :: post →
    (run CommandWorld.step w pre).exec c = .ok (w', result) →
      ∃ p, c.payload = some p ∧ w'.record c.key = some (p, .success result)
  replays : ∀ pre c mid c' post w' result, inputs = pre ++ .call c :: (mid ++ .call c' :: post) →
    (run CommandWorld.step w pre).exec c = .ok (w', result) → c'.key = c.key →
      c'.payload = c.payload →
        (run CommandWorld.step w (pre ++ .call c :: mid)).exec c' =
          .ok (run CommandWorld.step w (pre ++ .call c :: mid), result)
  refuses : ∀ pre c post p outcome, inputs = pre ++ .call c :: post →
    (run CommandWorld.step w pre).record c.key = some (p, outcome) → c.payload ≠ some p →
      (∃ e, (run CommandWorld.step w pre).exec c = .error e) ∧
        run CommandWorld.step w (pre ++ [.call c]) = run CommandWorld.step w pre
  forgets : ∀ pre c post e, inputs = pre ++ .call c :: post →
    (run CommandWorld.step w pre).exec c = .error e →
      run CommandWorld.step w (pre ++ [.call c]) = run CommandWorld.step w pre ∧
        ((run CommandWorld.step w pre).record c.key = none →
          (run CommandWorld.step w (pre ++ [.call c])).record c.key = none)

/-- The gate of the three functions, from any tables and over any sequence of calls. -/
theorem gateLaw (w : CommandWorld) (inputs : List CommandInput) : GateLaw w inputs where
  records pre c post w' result _ hexec := by
    obtain ⟨p, hpayload, hsettled⟩ := exec_settles hexec
    exact ⟨p, hpayload, record_of_settled hsettled⟩
  replays pre c mid c' post w' result _ hexec hkey hpayload := by
    have hstep : (run CommandWorld.step w pre).step (.call c) = w' := by
      simp only [CommandWorld.step, hexec]
    rw [run_append, run_cons, hstep]
    exact settles_commands.replay (fun _ _ _ _ _ => step_keeps) hexec mid hkey hpayload
  refuses pre c post p outcome _ hrecord hne := by
    cases hexec : (run CommandWorld.step w pre).exec c with
    | error e =>
      refine ⟨⟨e, rfl⟩, ?_⟩
      rw [run_append, run_cons, run_nil, step_of_error hexec]
    | ok out =>
      obtain ⟨after, result⟩ := out
      exact absurd (payload_of_record hexec hrecord) hne
  forgets pre c post e _ hexec := by
    have hsame : run CommandWorld.step w (pre ++ [.call c]) = run CommandWorld.step w pre := by
      rw [run_append, run_cons, run_nil, step_of_error hexec]
    refine ⟨hsame, fun hnone => ?_⟩
    rw [hsame]
    exact hnone

end Prequest.Booking
