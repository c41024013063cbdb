import Prequest.Outbox.Worker

/-!
# The states that the workers reach

Any number of workers drain one outbox while events arrive, are swept, purged
and consumed. The claim token is what keeps the workers apart: a row with a
token is open, and only the worker that drew the token writes it. The exception
is a dead-letter transaction, whose copy is not taken back when the claim goes
away before the row is flagged.

* `outboxLaw_of_guarded`: the laws for every such run.
* `sweepBetweenCopyAndFlag`: a run in which a sweep comes between the two.
-/

namespace Prequest.Outbox.Worker

open Prequest.Lib

variable {ι : Type} [DecidableEq ι] {id token : Nat}

/-! ## The laws -/

def StaysClaimable (cfg : WorkerConfig) (e : EventRow) : Prop :=
  e.attempts < cfg.maxAttempts ∧
    ∃ from', ∀ now, from' ≤ now →
      drainable cfg now (Table.updated (isStale cfg now) sweepSet e) = true

structure StateLaw (cfg : WorkerConfig) (w : OutboxWorld ι) : Prop where
  notBoth : ∀ e ∈ w.events.rows, ¬(e.processedAt.isSome = true ∧ e.deadLetteredAt.isSome = true)
  deadLettered : ∀ e ∈ w.events.rows,
    e.deadLetteredAt.isSome = true ↔ ∃ d ∈ w.deadLetters.rows, d.id = e.id
  deadLetters : ∀ d ∈ w.deadLetters.rows,
    ∃ e ∈ w.events.rows, e.id = d.id ∧ e.deadLetteredAt.isSome = true
  atMostOne : ∀ d ∈ w.deadLetters.rows, ∀ d' ∈ w.deadLetters.rows, d.id = d'.id → d = d'
  claimable : ∀ e ∈ w.events.rows,
    e.processedAt = none → e.deadLetteredAt = none → StaysClaimable cfg e

/-- The action is a write of an outcome by worker `i`. -/
def Action.WritesOutcome (i : ι) : Action ι → Prop
  | .dispatch j _ _ => j = i
  | .flag j _ => j = i
  | _ => False

/-- Worker `i` is at `event`, and the row of `event` no longer has its token. -/
def LostClaim (w : OutboxWorld ι) (i : ι) : Prop :=
  ∃ p event rest, w.pass i = some p ∧ p.batch = event :: rest ∧
    ∀ e ∈ w.events.rows, heldBy event.id p.token e = false

def StaleWriterLaw (cfg : WorkerConfig) (w : OutboxWorld ι) : Prop :=
  ∀ i action, action.WritesOutcome i → LostClaim w i →
    (step cfg w action).events = w.events ∧ (step cfg w action).deadLetters = w.deadLetters

def OutboxLaw (cfg : WorkerConfig) (w : OutboxWorld ι) (actions : List (Action ι)) : Prop :=
  ∀ pre post, actions = pre ++ post →
    StateLaw cfg (run (step cfg) w pre) ∧ StaleWriterLaw cfg (run (step cfg) w pre)

/-! ## The condition -/

/-- A dead-letter transaction has copied `e` and not flagged it yet. -/
def IsCopied (w : OutboxWorld ι) (e : EventRow) : Prop :=
  ∃ i p c d, w.pass i = some p ∧ p.openCopy = some c ∧ c.inserted = some d ∧ d.id = e.id

/-- The action does not take the claim of a row that is copied and not flagged. -/
def LeavesCopied (cfg : WorkerConfig) (w : OutboxWorld ι) : Action ι → Prop
  | .sweep now => ∀ e ∈ w.events.rows, isStale cfg now e = true → ¬IsCopied w e
  | .markConsumed tenantId idempotencyKey _ _ =>
      ∀ e ∈ w.events.rows, isConsumable tenantId idempotencyKey e = true → ¬IsCopied w e
  | _ => True

def initial : OutboxWorld ι where
  events := Table.empty
  deadLetters := Table.empty
  pass := fun _ => none
  nextToken := 0

/-! ## The invariant -/

section

variable (cfg : WorkerConfig)

structure RowOk (nextToken : Nat) (e : EventRow) : Prop where
  claimedOpen : e.claimToken.isSome = true → e.isOpen = true ∧ e.claimedAt.isSome = true
  tokenDrawn : ∀ t, e.claimToken = some t → t < nextToken
  notBoth : ¬(e.processedAt.isSome = true ∧ e.deadLetteredAt.isSome = true)
  attempts : e.isOpen = true → e.attempts < cfg.maxAttempts

/-- The copy of a dead-letter transaction is that of the row, whose claim still stands; no copy
means that the claim is gone. -/
def CopyOk (events : Table EventRow) (token : Nat) (event : EventRow) (c : OpenCopy) : Prop :=
  match c.inserted with
  | some d => ∃ e ∈ events.rows, heldBy event.id token e = true ∧ d.id = e.id ∧
      d.tenantId = e.tenantId ∧ d.idempotencyKey = e.idempotencyKey
  | none => ∀ e ∈ events.rows, heldBy event.id token e = false

structure PassOk (events : Table EventRow) (nextToken : Nat) (p : DrainPass) : Prop where
  tokenDrawn : p.token < nextToken
  snapshot : ∀ s ∈ p.batch, ∀ e ∈ events.rows, heldBy s.id p.token e = true →
    e.attempts = s.attempts
  copy : ∀ c event rest, p.openCopy = some c → p.batch = event :: rest →
    CopyOk events p.token event c

structure Inv (w : OutboxWorld ι) : Prop where
  rows : ∀ e ∈ w.events.rows, RowOk cfg w.nextToken e
  keys : ∀ e ∈ w.events.rows, ∀ f ∈ w.events.rows, e.tenantId = f.tenantId →
    e.idempotencyKey = f.idempotencyKey → e = f
  flagged : ∀ e ∈ w.events.rows,
    e.deadLetteredAt.isSome = true ↔ ∃ d ∈ w.deadLetters.rows, d.id = e.id
  archived : ∀ d ∈ w.deadLetters.rows, ∃ e ∈ w.events.rows, e.id = d.id ∧
    e.tenantId = d.tenantId ∧ e.idempotencyKey = d.idempotencyKey
  passes : ∀ i p, w.pass i = some p → PassOk w.events w.nextToken p
  tokens : ∀ i j p q, w.pass i = some p → w.pass j = some q → p.token = q.token → i = j

end

/-! ## Writes that give a claim up -/

/-- A write that clears the token, and leaves what the event is and whether it is dead-lettered. -/
structure Releases (f : Table.Assignment EventRow) : Prop where
  claimToken : ∀ e, (f.apply e).claimToken = none
  tenantId : ∀ e, (f.apply e).tenantId = e.tenantId
  idempotencyKey : ∀ e, (f.apply e).idempotencyKey = e.idempotencyKey
  deadLetteredAt : ∀ e, (f.apply e).deadLetteredAt = e.deadLetteredAt

theorem releases_successSet (now : Int) : Releases (successSet now) :=
  ⟨fun _ => rfl, fun _ => rfl, fun _ => rfl, fun _ => rfl⟩

theorem releases_retrySet (n : Nat) (error : String) (delayMs now : Int) :
    Releases (retrySet n error delayMs now) :=
  ⟨fun _ => rfl, fun _ => rfl, fun _ => rfl, fun _ => rfl⟩

theorem releases_sweepSet : Releases sweepSet :=
  ⟨fun _ => rfl, fun _ => rfl, fun _ => rfl, fun _ => rfl⟩

theorem releases_consumeSet (reason : String) (now : Int) : Releases (consumeSet reason now) :=
  ⟨fun _ => rfl, fun _ => rfl, fun _ => rfl, fun _ => rfl⟩

theorem heldBy_iff {e : EventRow} :
    heldBy id token e = true ↔ e.id = id ∧ e.claimToken = some token := by
  simp [heldBy]

theorem heldBy_eq_false {e : EventRow} (h : e.claimToken ≠ some token) :
    heldBy id token e = false := by
  simp [heldBy, h]

section

variable {cfg : WorkerConfig} {w : OutboxWorld ι} {events : Table EventRow} {nextToken : Nat}
  {pass : DrainPass} {p : EventRow → Bool} {f : Table.Assignment EventRow}

variable {e : EventRow} {i : ι}

theorem held_of_update (hf : ∀ r, (f.apply r).claimToken ≠ some token)
    (he : e ∈ (events.update p f).rows) (hheld : heldBy id token e = true) :
    e ∈ events.rows ∧ p e = false := by
  obtain ⟨r, hr, rfl⟩ := Table.mem_update.mp he
  cases hp : p r with
  | true =>
    rw [Table.updated_of_true hp] at hheld
    exact absurd (heldBy_iff.mp hheld).2 (hf r)
  | false =>
    rw [Table.updated_of_false hp]
    exact ⟨hr, hp⟩

theorem PassOk.transfer {events' : Table EventRow} {nextToken' : Nat}
    (h : PassOk events nextToken pass) (hnext : nextToken ≤ nextToken')
    (hback : ∀ id, ∀ e ∈ events'.rows, heldBy id pass.token e = true → e ∈ events.rows)
    (hcopied : ∀ c event rest, pass.openCopy = some c → pass.batch = event :: rest →
      c.inserted.isSome = true →
      ∀ e ∈ events.rows, heldBy event.id pass.token e = true → e ∈ events'.rows) :
    PassOk events' nextToken' pass := by
  refine ⟨Nat.lt_of_lt_of_le h.tokenDrawn hnext, ?_, ?_⟩
  · intro s hs e he hheld
    exact h.snapshot s hs e (hback s.id e he hheld) hheld
  · intro c event rest hc hbatch
    have hcopy := h.copy c event rest hc hbatch
    unfold CopyOk at hcopy ⊢
    cases hinserted : c.inserted with
    | some d =>
      simp only [hinserted] at hcopy ⊢
      obtain ⟨e, he, hheld, hids⟩ := hcopy
      have hstays := hcopied c event rest hc hbatch (by rw [hinserted]; rfl) e he hheld
      exact ⟨e, hstays, hheld, hids⟩
    | none =>
      simp only [hinserted] at hcopy ⊢
      intro e he
      cases hheld : heldBy event.id pass.token e with
      | false => rfl
      | true =>
        have hold := hcopy e (hback event.id e he hheld)
        rw [hold] at hheld
        cases hheld

theorem PassOk.advance (h : PassOk events nextToken pass) {next : DrainPass}
    (hnext : pass.advance = some next) :
    PassOk events nextToken next ∧ next.token = pass.token ∧ next.openCopy = none := by
  unfold DrainPass.advance at hnext
  split at hnext
  · cases hnext
  · cases hnext
    refine ⟨⟨h.tokenDrawn, ?_, ?_⟩, rfl, rfl⟩
    · intro s hs
      exact h.snapshot s (List.mem_of_mem_tail hs)
    · intro c event rest hc
      cases hc

theorem Inv.setPass (h : Inv cfg w) {next : Option DrainPass}
    (hnext : ∀ q, next = some q → PassOk w.events w.nextToken q ∧
      ∃ q₀, w.pass i = some q₀ ∧ q₀.token = q.token) :
    Inv cfg { w with pass := w.setPass i next } := by
  have hpass : ∀ j q, w.setPass i next j = some q →
      PassOk w.events w.nextToken q ∧ ∃ q₀, w.pass j = some q₀ ∧ q₀.token = q.token := by
    intro j q hq
    unfold OutboxWorld.setPass at hq
    by_cases hji : j = i
    · subst hji
      rw [Function.update_self] at hq
      exact hnext q hq
    · rw [Function.update_of_ne hji] at hq
      exact ⟨h.passes j q hq, q, hq, rfl⟩
  refine ⟨h.rows, h.keys, h.flagged, h.archived, fun j q hq => (hpass j q hq).1, ?_⟩
  intro j k q q' hq hq' htoken
  obtain ⟨q₀, hq₀, hsame⟩ := (hpass j q hq).2
  obtain ⟨q₁, hq₁, hsame'⟩ := (hpass k q' hq').2
  exact h.tokens j k q₀ q₁ hq₀ hq₁ (by rw [hsame, hsame', htoken])

omit [DecidableEq ι] in
theorem Inv.release (h : Inv cfg w) (hf : Releases f)
    (hrows : ∀ e ∈ w.events.rows, p e = true → RowOk cfg w.nextToken (f.apply e))
    (hcopied : ∀ i q c event rest, w.pass i = some q → q.openCopy = some c →
      q.batch = event :: rest → c.inserted.isSome = true →
      ∀ e ∈ w.events.rows, heldBy event.id q.token e = true → p e = false) :
    Inv cfg { w with events := w.events.update p f } := by
  have hsame : ∀ e, (Table.updated p f e).tenantId = e.tenantId ∧
      (Table.updated p f e).idempotencyKey = e.idempotencyKey ∧
      (Table.updated p f e).deadLetteredAt = e.deadLetteredAt := by
    intro e
    unfold Table.updated
    split
    · exact ⟨hf.tenantId e, hf.idempotencyKey e, hf.deadLetteredAt e⟩
    · exact ⟨rfl, rfl, rfl⟩
  have hid : ∀ e, (Table.updated p f e).id = e.id := Table.key_updated p f
  refine ⟨?_, ?_, ?_, ?_, ?_, h.tokens⟩
  · intro e' he'
    obtain ⟨e, he, rfl⟩ := Table.mem_update.mp he'
    cases hp : p e with
    | true =>
      rw [Table.updated_of_true hp]
      exact hrows e he hp
    | false =>
      rw [Table.updated_of_false hp]
      exact h.rows e he
  · intro e' he' g' hg' htenant hkey
    obtain ⟨e, he, rfl⟩ := Table.mem_update.mp he'
    obtain ⟨g, hg, rfl⟩ := Table.mem_update.mp hg'
    rw [(hsame e).1, (hsame g).1] at htenant
    rw [(hsame e).2.1, (hsame g).2.1] at hkey
    rw [h.keys e he g hg htenant hkey]
  · intro e' he'
    obtain ⟨e, he, rfl⟩ := Table.mem_update.mp he'
    rw [(hsame e).2.2, hid e]
    exact h.flagged e he
  · intro d hd
    obtain ⟨e, he, hids, htenant, hkey⟩ := h.archived d hd
    refine ⟨_, Table.mem_update.mpr ⟨e, he, rfl⟩, ?_⟩
    rw [hid e, (hsame e).1, (hsame e).2.1]
    exact ⟨hids, htenant, hkey⟩
  · intro i q hq
    refine (h.passes i q hq).transfer (Nat.le_refl _) ?_ ?_
    · intro id e he hheld
      refine (held_of_update ?_ he hheld).1
      intro r hr
      rw [hf.claimToken] at hr
      cases hr
    · intro c event rest hc hbatch hinserted e he hheld
      have hp := hcopied i q c event rest hq hc hbatch hinserted e he hheld
      exact Table.mem_update.mpr ⟨e, he, Table.updated_of_false hp⟩

/-! ## One step -/

theorem RowOk.of_unclaimed (hclaim : e.claimToken = none)
    (hboth : ¬(e.processedAt.isSome = true ∧ e.deadLetteredAt.isSome = true))
    (hattempts : e.isOpen = true → e.attempts < cfg.maxAttempts) : RowOk cfg nextToken e := by
  refine ⟨?_, ?_, hboth, hattempts⟩
  · intro hsome
    rw [hclaim] at hsome
    cases hsome
  · intro t ht
    rw [hclaim] at ht
    cases ht

theorem isOpen_iff : e.isOpen = true ↔ e.processedAt = none ∧ e.deadLetteredAt = none := by
  simp [EventRow.isOpen]

omit [DecidableEq ι] in
theorem Inv.held (h : Inv cfg w) {q : DrainPass} {s : EventRow} (hq : w.pass i = some q)
    (hs : s ∈ q.batch) (he : e ∈ w.events.rows) (hheld : heldBy s.id q.token e = true) :
    e.processedAt = none ∧ e.deadLetteredAt = none ∧ e.attempts = s.attempts := by
  have hclaim := (heldBy_iff.mp hheld).2
  have hopen := (h.rows e he).claimedOpen (by rw [hclaim]; rfl)
  exact ⟨(isOpen_iff.mp hopen.1).1, (isOpen_iff.mp hopen.1).2,
    (h.passes i q hq).snapshot s hs e he hheld⟩

theorem Inv.moved (h : Inv cfg w) (hq : w.pass i = some pass) :
    Inv cfg { w with pass := w.setPass i pass.advance } := by
  refine h.setPass ?_
  intro q hadvance
  obtain ⟨hok, htoken, _⟩ := (h.passes i pass hq).advance hadvance
  exact ⟨hok, pass, hq, htoken.symm⟩

theorem Inv.token_ne_of_copy (h : Inv cfg w) {i j : ι} {q : DrainPass} {c : OpenCopy}
    (hq : w.pass i = some pass) (hj : w.setPass i pass.advance j = some q)
    (hcopy : q.openCopy = some c) : q.token ≠ pass.token := by
  intro htoken
  unfold OutboxWorld.setPass at hj
  by_cases hji : j = i
  · subst hji
    rw [Function.update_self] at hj
    rw [((h.passes j pass hq).advance hj).2.2] at hcopy
    cases hcopy
  · rw [Function.update_of_ne hji] at hj
    exact hji (h.tokens j i q pass hj hq htoken)

variable {event : EventRow}

theorem Inv.writeOutcome (h : Inv cfg w) (hq : w.pass i = some pass) (hf : Releases f)
    (hrows : ∀ e ∈ w.events.rows, heldBy event.id pass.token e = true →
      RowOk cfg w.nextToken (f.apply e)) :
    Inv cfg
      { w with
        events := w.events.update (heldBy event.id pass.token) f
        pass := w.setPass i pass.advance } := by
  refine (h.moved hq).release hf hrows ?_
  intro j q c event' rest' hj hcopy _ _ e _ hheld
  refine heldBy_eq_false ?_
  intro htoken
  rw [(heldBy_iff.mp hheld).2] at htoken
  exact h.token_ne_of_copy hq hj hcopy (Option.some.inj htoken)

omit [DecidableEq ι] in
theorem Inv.emit (h : Inv cfg w) (hmax : 0 < cfg.maxAttempts) (event : EventRow) :
    Inv cfg { w with events := emitEvent w.events event } := by
  unfold emitEvent
  split
  · exact h
  rename_i hkey
  simp only [List.any_eq_true, Bool.and_eq_true, decide_eq_true_eq, not_exists, not_and] at hkey
  cases hget : w.events.get? (emitted event).id with
  | some existing =>
    rw [Table.put_of_present hget]
    exact h
  | none =>
    have hmem : ∀ e, e ∈ (w.events.put (emitted event)).rows ↔ e ∈ w.events.rows ∨ e = emitted event :=
      fun _ => Table.mem_put hget
    have hfresh : ∀ e ∈ w.events.rows, e.id ≠ event.id := Table.get?_eq_none.mp hget
    have hdead : ¬∃ d ∈ w.deadLetters.rows, d.id = event.id := by
      intro hexists
      obtain ⟨d, hd, hid⟩ := hexists
      obtain ⟨e, he, hsame, _⟩ := h.archived d hd
      exact hfresh e he (hsame.trans hid)
    refine ⟨?_, ?_, ?_, ?_, ?_, h.tokens⟩
    · intro e he
      rcases (hmem e).mp he with hold | rfl
      · exact h.rows e hold
      · exact .of_unclaimed rfl (by simp [emitted]) fun _ => hmax
    · intro e he g hg htenant hsame
      rcases (hmem e).mp he with hold | rfl
      · rcases (hmem g).mp hg with hold' | rfl
        · exact h.keys e hold g hold' htenant hsame
        · exact absurd hsame (hkey e hold htenant)
      · rcases (hmem g).mp hg with hold' | rfl
        · exact absurd hsame.symm (hkey g hold' htenant.symm)
        · rfl
    · intro e he
      rcases (hmem e).mp he with hold | rfl
      · exact h.flagged e hold
      · constructor
        · intro hnone
          cases hnone
        · intro hexists
          exact absurd hexists hdead
    · intro d hd
      obtain ⟨e, he, hids⟩ := h.archived d hd
      exact ⟨e, (hmem e).mpr (.inl he), hids⟩
    · intro i q hq
      refine (h.passes i q hq).transfer (Nat.le_refl _) ?_ ?_
      · intro id e he hheld
        rcases (hmem e).mp he with hold | rfl
        · exact hold
        · cases (heldBy_iff.mp hheld).2
      · intro _ _ _ _ _ _ e he _
        exact (hmem e).mpr (.inl he)

omit [DecidableEq ι] in
theorem Inv.purge (h : Inv cfg w) (now : Int) :
    Inv cfg { w with events := w.events.delete (isPurgeable cfg now) } := by
  have hkept : ∀ e ∈ w.events.rows, e.processedAt = none →
      e ∈ (w.events.delete (isPurgeable cfg now)).rows := by
    intro e he hnone
    exact Table.mem_delete.mpr ⟨he, by simp [isPurgeable, hnone]⟩
  refine ⟨?_, ?_, ?_, ?_, ?_, h.tokens⟩
  · intro e he
    exact h.rows e (Table.mem_delete.mp he).1
  · intro e he g hg
    exact h.keys e (Table.mem_delete.mp he).1 g (Table.mem_delete.mp hg).1
  · intro e he
    exact h.flagged e (Table.mem_delete.mp he).1
  · intro d hd
    obtain ⟨e, he, hids⟩ := h.archived d hd
    have hdead := (h.flagged e he).mpr ⟨d, hd, hids.1.symm⟩
    refine ⟨e, hkept e he ?_, hids⟩
    cases hprocessed : e.processedAt with
    | none => rfl
    | some at' => exact absurd ⟨by rw [hprocessed]; rfl, hdead⟩ (h.rows e he).notBoth
  · intro i q hq
    refine (h.passes i q hq).transfer (Nat.le_refl _) ?_ ?_
    · intro _ e he _
      exact (Table.mem_delete.mp he).1
    · intro c event rest _ hbatch _ e he hheld
      exact hkept e he (h.held hq (hbatch ▸ List.mem_cons_self) he hheld).1

theorem drainable_of_claimed {locked : List Nat} {now : Int} (he : e ∈ events.rows)
    (hclaimed : ((claimBatch cfg events locked now).map (·.id)).contains e.id = true) :
    drainable cfg now e = true := by
  rw [List.contains_iff_mem] at hclaimed
  obtain ⟨r, hr, hid⟩ := List.mem_map.mp hclaimed
  have hsorted := List.mem_of_mem_take hr
  rw [List.mem_insertionSort, List.mem_filter, Bool.and_eq_true] at hsorted
  obtain rfl := events.eq_of_key_eq hsorted.1 he hid
  exact hsorted.2.1

theorem drainable_iff {now : Int} : drainable cfg now e = true ↔
      e.isOpen = true ∧ e.claimToken = none ∧ e.availableAt ≤ now ∧
        e.attempts < cfg.maxAttempts := by
  simp [drainable, and_assoc]

theorem Inv.drain (h : Inv cfg w) (locked : List Nat) (now : Int) (hidle : w.pass i = none) :
    Inv cfg (step cfg w (.drain i locked now)) := by
  let claimed := fun e : EventRow =>
    ((claimBatch cfg w.events locked now).map (·.id)).contains e.id
  let events' := w.events.update claimed (claimSet w.nextToken now)
  let next : Option DrainPass :=
    if (events'.rows.filter claimed).isEmpty then none
    else some { token := w.nextToken, batch := events'.rows.filter claimed }
  have hstep : step cfg w (.drain i locked now) =
      { w with
        events := events'
        pass := w.setPass i next
        nextToken := w.nextToken + 1 } := by
    simp only [step, hidle]
    rfl
  have hrow : ∀ e, (Table.updated claimed (claimSet w.nextToken now) e).id = e.id ∧
      (Table.updated claimed (claimSet w.nextToken now) e).tenantId = e.tenantId ∧
      (Table.updated claimed (claimSet w.nextToken now) e).idempotencyKey = e.idempotencyKey ∧
      (Table.updated claimed (claimSet w.nextToken now) e).deadLetteredAt = e.deadLetteredAt := by
    intro e
    unfold Table.updated
    split <;> exact ⟨rfl, rfl, rfl, rfl⟩
  have hopen : ∀ e ∈ w.events.rows, claimed e = true → e.isOpen = true ∧ e.claimToken = none ∧
      e.availableAt ≤ now ∧ e.attempts < cfg.maxAttempts := by
    intro e he hclaimed
    exact drainable_iff.mp (drainable_of_claimed he hclaimed)
  -- The passes of the other workers: their tokens are older, and their rows are claimed.
  have hother : ∀ j q, w.pass j = some q → PassOk events' (w.nextToken + 1) q := by
    intro j q hq
    have hok := h.passes j q hq
    refine hok.transfer (Nat.le_succ _) ?_ ?_
    · intro id e he hheld
      refine (held_of_update ?_ he hheld).1
      intro r hr
      have hdrawn := hok.tokenDrawn
      rw [← Option.some.inj hr] at hdrawn
      exact Nat.lt_irrefl _ hdrawn
    · intro c event rest _ _ _ e he hheld
      refine Table.mem_update.mpr ⟨e, he, Table.updated_of_false ?_⟩
      cases hclaimed : claimed e with
      | false => rfl
      | true =>
        have hnone := (hopen e he hclaimed).2.1
        rw [(heldBy_iff.mp hheld).2] at hnone
        cases hnone
  have hpass : ∀ j q, w.setPass i next j = some q →
      PassOk events' (w.nextToken + 1) q ∧
        (j = i ∧ q.token = w.nextToken ∨ j ≠ i ∧ w.pass j = some q) := by
    intro j q hq
    unfold OutboxWorld.setPass at hq
    by_cases hji : j = i
    · subst hji
      rw [Function.update_self] at hq
      simp only [next] at hq
      split at hq
      · cases hq
      · cases hq
        refine ⟨⟨Nat.lt_succ_self _, ?_, ?_⟩, .inl ⟨rfl, rfl⟩⟩
        · intro s hs e he hheld
          rw [events'.eq_of_key_eq he (List.mem_filter.mp hs).1 (heldBy_iff.mp hheld).1]
        · intro c event rest hc
          cases hc
    · rw [Function.update_of_ne hji] at hq
      exact ⟨hother j q hq, .inr ⟨hji, hq⟩⟩
  rw [hstep]
  refine ⟨?_, ?_, ?_, ?_, fun j q hq => (hpass j q hq).1, ?_⟩
  · intro e' he'
    obtain ⟨e, he, rfl⟩ := Table.mem_update.mp he'
    have hok := h.rows e he
    cases hclaimed : claimed e with
    | true =>
      rw [Table.updated_of_true hclaimed]
      refine ⟨fun _ => ⟨(hopen e he hclaimed).1, rfl⟩, ?_, hok.notBoth, hok.attempts⟩
      intro t ht
      cases ht
      exact Nat.lt_succ_self _
    | false =>
      rw [Table.updated_of_false hclaimed]
      refine ⟨hok.claimedOpen, ?_, hok.notBoth, hok.attempts⟩
      intro t ht
      exact Nat.lt_succ_of_lt (hok.tokenDrawn t ht)
  · intro e' he' g' hg' htenant hkey
    obtain ⟨e, he, rfl⟩ := Table.mem_update.mp he'
    obtain ⟨g, hg, rfl⟩ := Table.mem_update.mp hg'
    rw [(hrow e).2.1, (hrow g).2.1] at htenant
    rw [(hrow e).2.2.1, (hrow g).2.2.1] at hkey
    rw [h.keys e he g hg htenant hkey]
  · intro e' he'
    obtain ⟨e, he, rfl⟩ := Table.mem_update.mp he'
    rw [(hrow e).2.2.2, (hrow e).1]
    exact h.flagged e he
  · intro d hd
    obtain ⟨e, he, hids, htenant, hkey⟩ := h.archived d hd
    refine ⟨_, Table.mem_update.mpr ⟨e, he, rfl⟩, ?_⟩
    rw [(hrow e).1, (hrow e).2.1, (hrow e).2.2.1]
    exact ⟨hids, htenant, hkey⟩
  · intro j k q q' hq hq' htoken
    rcases (hpass j q hq).2 with ⟨hj, hqtoken⟩ | ⟨_, hj⟩
    · rcases (hpass k q' hq').2 with ⟨hk, _⟩ | ⟨_, hk⟩
      · rw [hj, hk]
      · have hdrawn := (h.passes k q' hk).tokenDrawn
        rw [← htoken, hqtoken] at hdrawn
        exact absurd hdrawn (Nat.lt_irrefl _)
    · rcases (hpass k q' hq').2 with ⟨_, hqtoken⟩ | ⟨_, hk⟩
      · have hdrawn := (h.passes j q hj).tokenDrawn
        rw [htoken, hqtoken] at hdrawn
        exact absurd hdrawn (Nat.lt_irrefl _)
      · exact h.tokens j k q q' hj hk htoken

omit [DecidableEq ι] in
theorem Inv.copyOf_ok (h : Inv cfg w) (event : EventRow) (reason : DeadLetterReason)
    (error : String) (now : Int) :
    CopyOk w.events pass.token event
      { error := error, inserted := copyOf w pass event reason error now } := by
  unfold CopyOk copyOf
  cases hfind : w.events.rows.find? (heldBy event.id pass.token) with
  | none =>
    intro e he
    cases hheld : heldBy event.id pass.token e with
    | false => rfl
    | true => exact absurd hheld (List.find?_eq_none.mp hfind e he)
  | some e =>
    have he : e ∈ w.events.rows := List.mem_of_find?_eq_some hfind
    have hheld : heldBy event.id pass.token e = true := List.find?_some hfind
    -- The row is open, so no dead letter has its key.
    have hfree : ¬(w.deadLetters.rows.any fun d =>
        decide (d.tenantId = e.tenantId) && decide (d.idempotencyKey = e.idempotencyKey)) =
          true := by
      intro hany
      rw [List.any_eq_true] at hany
      obtain ⟨d, hd, hsame⟩ := hany
      simp only [Bool.and_eq_true, decide_eq_true_eq] at hsame
      obtain ⟨g, hg, hid, htenant, hkey⟩ := h.archived d hd
      obtain rfl := h.keys g hg e he (htenant.trans hsame.1) (hkey.trans hsame.2)
      have hopen := (h.rows g hg).claimedOpen (by rw [(heldBy_iff.mp hheld).2]; rfl)
      have hdead := (h.flagged g hg).mpr ⟨d, hd, hid.symm⟩
      rw [(isOpen_iff.mp hopen.1).2] at hdead
      cases hdead
    simp only [if_neg hfree]
    exact ⟨e, he, hheld, rfl, rfl, rfl⟩

theorem Inv.flag (h : Inv cfg w) {rest : List EventRow} {c : OpenCopy} (hq : w.pass i = some pass)
    (hbatch : pass.batch = event :: rest) (hcopy : pass.openCopy = some c) (now : Int) :
    Inv cfg
      { w with
        events := w.events.update (heldBy event.id pass.token) (flagSet c.error now)
        deadLetters := c.inserted.elim w.deadLetters w.deadLetters.put
        pass := w.setPass i pass.advance } := by
  have hmoved := h.moved hq
  have hcopyOk := (h.passes i pass hq).copy c event rest hcopy hbatch
  unfold CopyOk at hcopyOk
  cases hinserted : c.inserted with
  | none =>
    simp only [hinserted] at hcopyOk
    rw [Table.update_eq_self hcopyOk]
    exact hmoved
  | some d =>
    simp only [hinserted] at hcopyOk
    obtain ⟨e, he, hheld, hid, htenant, hkey⟩ := hcopyOk
    have hdead := (h.held hq (hbatch ▸ List.mem_cons_self) he hheld).2.1
    have hprocessed := (h.held hq (hbatch ▸ List.mem_cons_self) he hheld).1
    have hfresh : w.deadLetters.get? (key d) = none := by
      refine Table.get?_eq_none.mpr ?_
      intro d' hd' hsame
      have hflag := (h.flagged e he).mpr ⟨d', hd', hsame.trans hid⟩
      rw [hdead] at hflag
      cases hflag
    have hmem : ∀ d', d' ∈ (w.deadLetters.put d).rows ↔ d' ∈ w.deadLetters.rows ∨ d' = d :=
      fun _ => Table.mem_put hfresh
    -- The held row is the only one that is flagged.
    have honly : ∀ g ∈ w.events.rows, heldBy event.id pass.token g = true → g = e := by
      intro g hg hheld'
      exact w.events.eq_of_key_eq hg he
        ((heldBy_iff.mp hheld').1.trans (heldBy_iff.mp hheld).1.symm)
    have hrow : ∀ g, (Table.updated (heldBy event.id pass.token) (flagSet c.error now) g).id = g.id ∧
        (Table.updated (heldBy event.id pass.token) (flagSet c.error now) g).tenantId = g.tenantId ∧
        (Table.updated (heldBy event.id pass.token) (flagSet c.error now) g).idempotencyKey =
          g.idempotencyKey := by
      intro g
      unfold Table.updated
      split <;> exact ⟨rfl, rfl, rfl⟩
    refine ⟨?_, ?_, ?_, ?_, ?_, hmoved.tokens⟩
    · intro g' hg'
      obtain ⟨g, hg, rfl⟩ := Table.mem_update.mp hg'
      cases hp : heldBy event.id pass.token g with
      | true =>
        obtain rfl := honly g hg hp
        rw [Table.updated_of_true hp]
        refine .of_unclaimed rfl ?_ ?_
        · simp [flagSet, hprocessed]
        · intro hopen
          cases (isOpen_iff.mp hopen).2
      | false =>
        rw [Table.updated_of_false hp]
        exact h.rows g hg
    · intro g' hg' k' hk' hsameTenant hsameKey
      obtain ⟨g, hg, rfl⟩ := Table.mem_update.mp hg'
      obtain ⟨k, hk, rfl⟩ := Table.mem_update.mp hk'
      rw [(hrow g).2.1, (hrow k).2.1] at hsameTenant
      rw [(hrow g).2.2, (hrow k).2.2] at hsameKey
      rw [h.keys g hg k hk hsameTenant hsameKey]
    · intro g' hg'
      obtain ⟨g, hg, rfl⟩ := Table.mem_update.mp hg'
      rw [(hrow g).1]
      cases hp : heldBy event.id pass.token g with
      | true =>
        obtain rfl := honly g hg hp
        rw [Table.updated_of_true hp]
        exact ⟨fun _ => ⟨d, (hmem d).mpr (.inr rfl), hid⟩, fun _ => rfl⟩
      | false =>
        rw [Table.updated_of_false hp, h.flagged g hg]
        constructor
        · intro hexists
          obtain ⟨d', hd', hsame⟩ := hexists
          exact ⟨d', (hmem d').mpr (.inl hd'), hsame⟩
        · intro hexists
          obtain ⟨d', hd', hsame⟩ := hexists
          rcases (hmem d').mp hd' with hold | rfl
          · exact ⟨d', hold, hsame⟩
          · obtain rfl := w.events.eq_of_key_eq hg he (hsame.symm.trans hid)
            rw [hheld] at hp
            cases hp
    · intro d' hd'
      have hevent : ∃ g ∈ w.events.rows, g.id = d'.id ∧ g.tenantId = d'.tenantId ∧
          g.idempotencyKey = d'.idempotencyKey := by
        rcases (hmem d').mp hd' with hold | rfl
        · exact h.archived d' hold
        · exact ⟨e, he, hid.symm, htenant.symm, hkey.symm⟩
      obtain ⟨g, hg, hids⟩ := hevent
      refine ⟨_, Table.mem_update.mpr ⟨g, hg, rfl⟩, ?_⟩
      rw [(hrow g).1, (hrow g).2.1, (hrow g).2.2]
      exact hids
    · intro j q hj
      refine (hmoved.passes j q hj).transfer (Nat.le_refl _) ?_ ?_
      · intro id g hg hheld'
        exact (held_of_update (fun r hr => by cases hr) hg hheld').1
      · intro c' event' rest' hc' _ _ g hg hheld'
        refine Table.mem_update.mpr ⟨g, hg, Table.updated_of_false (heldBy_eq_false ?_)⟩
        intro htoken
        rw [(heldBy_iff.mp hheld').2] at htoken
        exact h.token_ne_of_copy hq hj hc' (Option.some.inj htoken)

theorem dispatchOutcome_retry {answer : DispatchAnswer} {n : Nat}
    {error : String} (h : dispatchOutcome cfg event answer = .retry n error) :
    n = event.attempts + 1 ∧ n < cfg.maxAttempts := by
  unfold dispatchOutcome at h
  split at h
  · cases h
  split at h
  · cases h
  cases hresult : answer.result with
  | ok =>
    rw [hresult] at h
    cases h
  | deadLetterError message =>
    rw [hresult] at h
    cases h
  | threw message =>
    simp only [hresult] at h
    split at h
    · cases h
    · cases h
      exact ⟨rfl, by omega⟩

theorem Inv.dispatch (h : Inv cfg w) (i : ι) (answer : DispatchAnswer) (now : Int) :
    Inv cfg (step cfg w (.dispatch i answer now)) := by
  cases hpass : w.pass i with
  | none =>
    simp only [step, hpass]
    exact h
  | some p =>
    obtain ⟨token, batch, openCopy⟩ := p
    cases openCopy with
    | some c =>
      simp only [step, hpass]
      exact h
    | none =>
      cases batch with
      | nil =>
        simp only [step, hpass]
        exact h
      | cons event rest =>
        have hheldOpen := fun e he hheld => h.held hpass (s := event) List.mem_cons_self
          (e := e) he hheld
        cases houtcome : dispatchOutcome cfg event answer with
        | success =>
          simp only [step, hpass, houtcome]
          refine h.writeOutcome hpass (releases_successSet now) ?_
          intro e he hheld
          refine .of_unclaimed rfl ?_ ?_
          · simp [successSet, (hheldOpen e he hheld).2.1]
          · intro hopen
            cases (isOpen_iff.mp hopen).1
        | retry n error =>
          simp only [step, hpass, houtcome]
          refine h.writeOutcome hpass (releases_retrySet _ _ _ _) ?_
          intro e he hheld
          refine .of_unclaimed rfl (h.rows e he).notBoth ?_
          intro _
          exact (dispatchOutcome_retry houtcome).2
        | deadLetter reason error =>
          simp only [step, hpass, houtcome]
          have hok := h.passes i _ hpass
          refine h.setPass ?_
          intro q hq
          cases hq
          refine ⟨⟨hok.tokenDrawn, hok.snapshot, ?_⟩, _, hpass, rfl⟩
          intro c event' rest' hc hbatch
          cases hc
          cases hbatch
          exact h.copyOf_ok event reason error now

theorem inv_step (hmax : 0 < cfg.maxAttempts) (w : OutboxWorld ι) (action : Action ι)
    (h : Inv cfg w) (hleaves : LeavesCopied cfg w action) : Inv cfg (step cfg w action) := by
  -- A row that is about to lose its claim is not a copied one.
  have hnotCopied : ∀ p : EventRow → Bool, (∀ e ∈ w.events.rows, p e = true → ¬IsCopied w e) →
      ∀ i q c event rest, w.pass i = some q → q.openCopy = some c →
        q.batch = event :: rest → c.inserted.isSome = true →
        ∀ e ∈ w.events.rows, heldBy event.id q.token e = true → p e = false := by
    intro p hp i q c event rest hq hc hbatch hinserted e he hheld
    cases hpe : p e with
    | false => rfl
    | true =>
      obtain ⟨d, hd⟩ := Option.isSome_iff_exists.mp hinserted
      have hcopy := (h.passes i q hq).copy c event rest hc hbatch
      simp only [CopyOk, hd] at hcopy
      obtain ⟨e', _, hheld', hid, _⟩ := hcopy
      refine absurd ⟨i, q, c, d, hq, hc, hd, ?_⟩ (hp e he hpe)
      rw [hid, (heldBy_iff.mp hheld').1, (heldBy_iff.mp hheld).1]
  cases action with
  | emit event => exact h.emit hmax event
  | drain i locked now =>
    cases hpass : w.pass i with
    | none => exact h.drain locked now hpass
    | some p =>
      simp only [step, hpass]
      exact h
  | dispatch i answer now => exact h.dispatch i answer now
  | flag i now =>
    cases hpass : w.pass i with
    | none =>
      simp only [step, hpass]
      exact h
    | some p =>
      obtain ⟨token, batch, openCopy⟩ := p
      cases openCopy with
      | none =>
        simp only [step, hpass]
        exact h
      | some c =>
        cases batch with
        | nil =>
          simp only [step, hpass]
          exact h
        | cons event rest =>
          simp only [step, hpass]
          exact h.flag hpass rfl rfl now
  | fail i =>
    refine h.setPass ?_
    intro q hq
    obtain ⟨p, hp, hadvance⟩ := Option.bind_eq_some_iff.mp hq
    obtain ⟨hok, htoken, _⟩ := (h.passes i p hp).advance hadvance
    exact ⟨hok, p, hp, htoken.symm⟩
  | crash i => exact h.setPass fun q hq => by cases hq
  | sweep now =>
    refine h.release releases_sweepSet ?_ (hnotCopied _ hleaves)
    intro e he _
    exact .of_unclaimed rfl (h.rows e he).notBoth (h.rows e he).attempts
  | purge now => exact h.purge now
  | markConsumed tenantId idempotencyKey reason now =>
    refine h.release (releases_consumeSet reason now) ?_ (hnotCopied _ hleaves)
    intro e he hconsumable
    simp only [isConsumable, Bool.and_eq_true] at hconsumable
    have hopen := isOpen_iff.mp hconsumable.2
    refine .of_unclaimed rfl ?_ ?_
    · simp [consumeSet, hopen.2]
    · intro hnew
      cases (isOpen_iff.mp hnew).1

/-! ## Runs -/

omit [DecidableEq ι] in
theorem Inv.stateLaw (h : Inv cfg w) : StateLaw cfg w := by
  refine ⟨fun e he => (h.rows e he).notBoth, h.flagged, ?_, ?_, ?_⟩
  · intro d hd
    obtain ⟨e, he, hid, _⟩ := h.archived d hd
    exact ⟨e, he, hid, (h.flagged e he).mpr ⟨d, hd, hid.symm⟩⟩
  · intro d hd d' hd' hid
    exact w.deadLetters.eq_of_key_eq hd hd' hid
  · intro e he hprocessed hdead
    have hopen : e.isOpen = true := isOpen_iff.mpr ⟨hprocessed, hdead⟩
    have hbelow := (h.rows e he).attempts hopen
    refine ⟨hbelow, ?_⟩
    cases hclaimed : e.claimedAt with
    | none =>
      -- A row that was never claimed has no token.
      have htoken : e.claimToken = none := by
        cases htoken : e.claimToken with
        | none => rfl
        | some t =>
          have hat := ((h.rows e he).claimedOpen (by rw [htoken]; rfl)).2
          rw [hclaimed] at hat
          cases hat
      refine ⟨e.availableAt, ?_⟩
      intro now hnow
      have hfresh : isStale cfg now e = false := by simp [isStale, hclaimed]
      rw [Table.updated_of_false hfresh]
      exact drainable_iff.mpr ⟨hopen, htoken, hnow, hbelow⟩
    | some at' =>
      refine ⟨max e.availableAt (at' + cfg.staleClaimMs + 1), ?_⟩
      intro now hnow
      have hstale : isStale cfg now e = true := by
        simp only [isStale, hopen, hclaimed, Option.any_some, Bool.true_and, decide_eq_true_eq]
        omega
      rw [Table.updated_of_true hstale]
      exact drainable_iff.mpr ⟨hopen, rfl, by show e.availableAt ≤ now; omega, hbelow⟩

theorem Inv.staleWriterLaw (h : Inv cfg w) : StaleWriterLaw cfg w := by
  intro i action hwrites hlost
  obtain ⟨p, event, rest, hpass, hbatch, hlost⟩ := hlost
  obtain ⟨token, batch, openCopy⟩ := p
  obtain rfl : batch = event :: rest := hbatch
  cases action with
  | dispatch j answer now =>
    obtain rfl : j = i := hwrites
    cases openCopy with
    | some c =>
      simp only [step, hpass]
      exact ⟨trivial, trivial⟩
    | none =>
      cases houtcome : dispatchOutcome cfg event answer with
      | success =>
        simp only [step, hpass, houtcome]
        exact ⟨Table.update_eq_self hlost, trivial⟩
      | retry n error =>
        simp only [step, hpass, houtcome]
        exact ⟨Table.update_eq_self hlost, trivial⟩
      | deadLetter reason error =>
        simp only [step, hpass, houtcome]
        exact ⟨trivial, trivial⟩
  | flag j now =>
    obtain rfl : j = i := hwrites
    cases openCopy with
    | none =>
      simp only [step, hpass]
      exact ⟨trivial, trivial⟩
    | some c =>
      simp only [step, hpass]
      refine ⟨Table.update_eq_self hlost, ?_⟩
      cases hinserted : c.inserted with
      | none => rfl
      | some d =>
        have hcopy := (h.passes j _ hpass).copy c event rest rfl rfl
        simp only [CopyOk, hinserted] at hcopy
        obtain ⟨e, he, hheld, _⟩ := hcopy
        rw [hlost e he] at hheld
        cases hheld
  | emit _ => exact hwrites.elim
  | drain _ _ _ => exact hwrites.elim
  | fail _ => exact hwrites.elim
  | crash _ => exact hwrites.elim
  | sweep _ => exact hwrites.elim
  | purge _ => exact hwrites.elim
  | markConsumed _ _ _ _ => exact hwrites.elim

omit [DecidableEq ι] in
theorem inv_initial : Inv cfg (initial : OutboxWorld ι) := by
  refine ⟨?_, ?_, ?_, ?_, ?_, ?_⟩
  · intro e he
    exact absurd he List.not_mem_nil
  · intro e he
    exact absurd he List.not_mem_nil
  · intro e he
    exact absurd he List.not_mem_nil
  · intro d hd
    exact absurd hd List.not_mem_nil
  · intro i p hp
    cases hp
  · intro i j p q hp
    cases hp

/-- The laws in every state of a run that leaves the copied rows alone. -/
theorem outboxLaw_of_guarded (hmax : 0 < cfg.maxAttempts) {actions : List (Action ι)}
    (hleaves : Guarded (step cfg) (LeavesCopied cfg) initial actions) :
    OutboxLaw cfg initial actions := by
  intro pre post hactions
  rw [hactions] at hleaves
  have hinv := hleaves.take.invariant (inv_step hmax) inv_initial
  exact ⟨hinv.stateLaw, hinv.staleWriterLaw⟩

end

/-! ## A sweep between the copy and the flag -/

def testEvent : EventRow where
  id := 1
  tenantId := 7
  eventType := "booking.cancelled"
  idempotencyKey := "booking.cancelled:1"
  enqueuedAt := 0
  availableAt := 0

def rejectEvent : List (Action Unit) :=
  [.emit testEvent, .drain () [] 0, .dispatch () { result := .deadLetterError "rejected" } 400000]

/-- Left alone, the event ends up dead-lettered, and the later sweeps do not touch it. -/
theorem outboxLaw_rejectEvent :
    OutboxLaw {} (initial : OutboxWorld Unit)
      (rejectEvent ++ [.flag () 400000, .sweep 800000, .purge 900000]) := by
  refine outboxLaw_of_guarded (by decide) ?_
  refine ⟨trivial, trivial, trivial, trivial, ?_, trivial, trivial⟩
  intro e _ _ hcopied
  obtain ⟨i, p, _, _, hpass, _⟩ := hcopied
  cases hpass

/-- Swept between the copy and the flag, it has a dead letter and is not dead-lettered. -/
theorem sweepBetweenCopyAndFlag :
    ¬ ∀ (cfg : WorkerConfig) (actions : List (Action Unit)), 0 < cfg.maxAttempts →
      OutboxLaw cfg initial actions := by
  intro hlaw
  have hstate := hlaw {} (rejectEvent ++ [.sweep 400000, .flag () 400000]) (by decide)
    _ [] (List.append_nil _).symm
  have hdead := hstate.1.deadLettered
    { testEvent with claimToken := none, claimedAt := none } (by decide)
  exact absurd (hdead.mpr ⟨_, List.mem_singleton_self _, rfl⟩) (by decide)

end Prequest.Outbox.Worker
