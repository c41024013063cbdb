import Prequest.Privacy.AuditOutbox

/-!
# Runs of the audit workers

* `auditLaw_iff`: no row is held back by another exactly in the runs whose
  claims take rows that the database treats alike.
-/

namespace Prequest.Privacy.Audit

open Prequest.Lib

variable {ι : Type} [DecidableEq ι] {cfg : AuditOutboxConfig} {accepts : AuditEventRow → Bool}
  {w w' : AuditWorld ι} {outbox : Table AuditOutboxRow} {locked : List Nat} {row : AuditOutboxRow}
  {token : Nat} {f : Table.Assignment AuditOutboxRow} {p : AuditOutboxRow → Bool}
  {next : Option DrainPass} {i : ι} {event : AuditEventRow}

/-! ## What the outbox promises -/

/-- A row stays until its event is there, and events stay as they are. -/
structure Kept (w w' : AuditWorld ι) : Prop where
  row : ∀ row ∈ w.outbox.rows, (∃ row' ∈ w'.outbox.rows, row'.event = row.event) ∨
    w'.events.get? row.id = some row.event
  event : ∀ id event, w.events.get? id = some event → w'.events.get? id = some event

/-- The promises about one state. -/
structure DrainLaw (cfg : AuditOutboxConfig) (accepts : AuditEventRow → Bool) (w : AuditWorld ι) :
    Prop where
  copied : ∀ row ∈ w.outbox.rows, row.processedAt ≠ none →
    w.events.get? row.id = some row.event
  once : ∀ row ∈ w.outbox.rows, ∀ event, w.events.get? row.id = some event → event = row.event
  /-- A claim that is not kept is swept. -/
  released : ∀ row ∈ w.outbox.rows, row.claimToken ≠ none → row.claimedAt ≠ none
  /-- No attempt of a row that reaches the limit failed because of other rows. -/
  ownAttempts : ∀ row ∈ w.outbox.rows, row.processedAt = none → accepts row.event = true →
    cfg.maxAttempts ≤ row.attempts → ∀ events ∈ w.rejected, row.event ∉ events
  /-- A pass that is not interrupted processes the rows that the database takes. -/
  completes : ∀ i token now, w.pass i = some (.claimed token) → ∀ row ∈ w.outbox.rows,
    isHeld token row = true → accepts row.event = true →
      ∃ row' ∈ (run (step cfg accepts) w [.read i, .insert i, .mark i now]).outbox.rows,
        row'.event = row.event ∧ row'.processedAt ≠ none

structure AuditLaw (cfg : AuditOutboxConfig) (accepts : AuditEventRow → Bool) (w : AuditWorld ι)
    (actions : List (Action ι)) : Prop where
  state : ∀ pre post, actions = pre ++ post →
    DrainLaw cfg accepts (run (step cfg accepts) w pre)
  kept : ∀ pre mid post, actions = pre ++ mid ++ post →
    Kept (run (step cfg accepts) w pre) (run (step cfg accepts) w (pre ++ mid))

/-- A claim takes rows that the database all takes or all rejects. -/
def UnmixedClaim (cfg : AuditOutboxConfig) (accepts : AuditEventRow → Bool) (w : AuditWorld ι) :
    Action ι → Prop
  | .claim i locked _ =>
      w.pass i = some .swept → ∀ row ∈ claimBatch cfg w.outbox locked,
        ∀ row' ∈ claimBatch cfg w.outbox locked, accepts row.event = accepts row'.event
  | _ => True

structure Start (w : AuditWorld ι) : Prop where
  fresh : ∀ row ∈ w.outbox.rows, emitted row = row ∧ w.events.get? row.id = none
  pass : ∀ i, w.pass i = none
  rejected : w.rejected = []

/-! ## What a step leaves -/

/-- The later state keeps the rows, and every row it has is an old one with no new claim of an old
token, or is new. -/
structure Later (w w' : AuditWorld ι) : Prop extends Kept w w' where
  nextToken : w.nextToken ≤ w'.nextToken
  origin : ∀ row' ∈ w'.outbox.rows,
    (∃ row ∈ w.outbox.rows, row'.event = row.event ∧
      ∀ token < w.nextToken, isHeld token row' = true → isHeld token row = true) ∨
    ((∀ row ∈ w.outbox.rows, row.id ≠ row'.id) ∧ w.events.get? row'.id = none ∧
      row'.claimToken = none)

theorem id_eq_of_event {row row' : AuditOutboxRow} (h : row'.event = row.event) :
    row'.id = row.id := congrArg AuditEventRow.id h

theorem isHeld_iff :
    isHeld token row = true ↔ row.claimToken = some token ∧ row.processedAt = none := by
  simp [isHeld]

omit [DecidableEq ι] in
theorem later_of_same (houtbox : w'.outbox = w.outbox) (hevents : w'.events = w.events)
    (htoken : w'.nextToken = w.nextToken) : Later w w' where
  row row hrow := .inl ⟨row, houtbox ▸ hrow, rfl⟩
  event _ _ h := hevents ▸ h
  nextToken := Nat.le_of_eq htoken.symm
  origin row' hrow' := .inl ⟨row', houtbox ▸ hrow', rfl, fun _ _ h => h⟩

omit [DecidableEq ι] in
theorem later_of_update (houtbox : w'.outbox = w.outbox.update p f) (hevents : w'.events = w.events)
    (htoken : w.nextToken ≤ w'.nextToken) (hevent : ∀ row, (f.apply row).event = row.event)
    (hheld : ∀ row, ∀ token < w.nextToken, isHeld token (f.apply row) = true →
      isHeld token row = true) : Later w w' where
  row row hrow := by
    refine .inl ⟨Table.updated p f row, ?_, ?_⟩
    · rw [houtbox]
      exact Table.mem_update.mpr ⟨row, hrow, rfl⟩
    · unfold Table.updated
      split
      · exact hevent row
      · rfl
  event _ _ h := hevents ▸ h
  nextToken := htoken
  origin row' hrow' := by
    rw [houtbox] at hrow'
    obtain ⟨row, hrow, ⟨_, rfl⟩ | ⟨_, rfl⟩⟩ := Table.mem_update_iff.mp hrow'
    · exact .inl ⟨row, hrow, hevent row, hheld row⟩
    · exact .inl ⟨row', hrow, rfl, fun _ _ h => h⟩

/-! ## The invariant -/

structure RowOk (events : Table AuditEventRow) (nextToken : Nat) (row : AuditOutboxRow) : Prop where
  copied : row.processedAt ≠ none → events.get? row.id = some row.event
  once : ∀ event, events.get? row.id = some event → event = row.event
  token : ∀ token, row.claimToken = some token → token < nextToken ∧ row.claimedAt ≠ none

/-- An event that was read is that of the one row with its id, now or before. -/
def Known (w : AuditWorld ι) (event : AuditEventRow) : Prop :=
  (∀ row ∈ w.outbox.rows, row.id = event.id → row.event = event) ∧
    ((∃ row ∈ w.outbox.rows, row.id = event.id) ∨ ∃ found, w.events.get? event.id = some found)

/-- What a worker knows of the rows it holds. -/
def PassOk (w : AuditWorld ι) : DrainPass → Prop
  | .swept => True
  | .claimed token => token < w.nextToken
  | .copying token events =>
      token < w.nextToken ∧
        (∀ row ∈ w.outbox.rows, isHeld token row = true → row.event ∈ events) ∧
        ∀ event ∈ events, Known w event
  | .copied token =>
      token < w.nextToken ∧ ∀ row ∈ w.outbox.rows, isHeld token row = true →
        w.events.get? row.id = some row.event
  | .idle => True

structure Inv (w : AuditWorld ι) : Prop where
  row : ∀ row ∈ w.outbox.rows, RowOk w.events w.nextToken row
  pass : ∀ i p, w.pass i = some p → PassOk w p

omit [DecidableEq ι] in
theorem Known.later (h : Known w event) (hlater : Later w w') : Known w' event := by
  refine ⟨fun row' hrow' hid => ?_, ?_⟩
  · rcases hlater.origin row' hrow' with ⟨row, hrow, hevent, _⟩ | ⟨hnew, hnone, _⟩
    · rw [hevent]
      exact h.1 row hrow ((id_eq_of_event hevent).symm.trans hid)
    · rcases h.2 with ⟨row, hrow, hrowId⟩ | ⟨found, hfound⟩
      · exact absurd (hrowId.trans hid.symm) (hnew row hrow)
      · rw [← hid, hnone] at hfound
        cases hfound
  · rcases h.2 with ⟨row, hrow, hrowId⟩ | ⟨found, hfound⟩
    · rcases hlater.row row hrow with ⟨row', hrow', hevent⟩ | hcopied
      · exact .inl ⟨row', hrow', (id_eq_of_event hevent).trans hrowId⟩
      · exact .inr ⟨row.event, hrowId ▸ hcopied⟩
    · exact .inr ⟨found, hlater.event _ _ hfound⟩

omit [DecidableEq ι] in
theorem Later.held {row' : AuditOutboxRow} (hlater : Later w w') (htoken : token < w.nextToken)
    (hrow' : row' ∈ w'.outbox.rows) (hheld : isHeld token row' = true) :
    ∃ row ∈ w.outbox.rows, row'.event = row.event ∧ isHeld token row = true := by
  rcases hlater.origin row' hrow' with ⟨row, hrow, hevent, hold⟩ | ⟨_, _, hnone⟩
  · exact ⟨row, hrow, hevent, hold token htoken hheld⟩
  · rw [isHeld_iff, hnone] at hheld
    cases hheld.1

omit [DecidableEq ι] in
theorem PassOk.later {p : DrainPass} (h : PassOk w p) (hlater : Later w w') : PassOk w' p := by
  cases p with
  | swept => trivial
  | claimed token => exact Nat.lt_of_lt_of_le h hlater.nextToken
  | copying token events =>
    obtain ⟨htoken, hread, hknown⟩ := h
    refine ⟨Nat.lt_of_lt_of_le htoken hlater.nextToken, fun row' hrow' hheld => ?_,
      fun event hevent => (hknown event hevent).later hlater⟩
    obtain ⟨row, hrow, hevent, hbefore⟩ := hlater.held htoken hrow' hheld
    rw [hevent]
    exact hread row hrow hbefore
  | copied token =>
    obtain ⟨htoken, hcopied⟩ := h
    refine ⟨Nat.lt_of_lt_of_le htoken hlater.nextToken, fun row' hrow' hheld => ?_⟩
    obtain ⟨row, hrow, hevent, hbefore⟩ := hlater.held htoken hrow' hheld
    rw [hevent, id_eq_of_event hevent]
    exact hlater.event _ _ (hcopied row hrow hbefore)
  | idle => trivial

theorem pass_of_update {i j : ι} {p : DrainPass} (h : Function.update w.pass i next j = some p) :
    w.pass j = some p ∨ next = some p := by
  by_cases hj : j = i
  · rw [hj, Function.update_self] at h
    exact .inr h
  · rw [Function.update_of_ne hj] at h
    exact .inl h

theorem Inv.move (h : Inv w) (hlater : Later w w')
    (hpass : w'.pass = Function.update w.pass i next)
    (hrow : ∀ row ∈ w'.outbox.rows, RowOk w'.events w'.nextToken row)
    (hnext : ∀ p, next = some p → PassOk w' p) : Inv w' where
  row := hrow
  pass j p hp := by
    rw [hpass] at hp
    rcases pass_of_update hp with hold | hnew
    · exact (h.pass j p hold).later hlater
    · exact hnext p hnew

/-! ## The steps -/

omit [DecidableEq ι] in
theorem mem_claimedEvents :
    event ∈ claimedEvents outbox token ↔
      ∃ row ∈ outbox.rows, isHeld token row = true ∧ row.event = event := by
  simp [claimedEvents, and_assoc]

theorem mem_claimBatch (h : row ∈ claimBatch cfg outbox locked) :
    row ∈ outbox.rows ∧ row.processedAt = none ∧ row.claimToken = none := by
  have hmem := (List.mem_insertionSort _).mp (List.mem_of_mem_take h)
  simp only [List.mem_filter, isClaimable, Bool.and_eq_true, Option.isNone_iff_eq_none] at hmem
  exact ⟨hmem.1, hmem.2.1.1.1, hmem.2.1.1.2⟩

theorem mem_claimBatch_of_id (hrow : row ∈ outbox.rows)
    (hid : ((claimBatch cfg outbox locked).map (·.id)).contains row.id = true) :
    row ∈ claimBatch cfg outbox locked := by
  obtain ⟨row', hmem, hsame⟩ := List.mem_map.mp (List.contains_iff_mem.mp hid)
  rwa [outbox.eq_of_key_eq hrow (mem_claimBatch hmem).1 hsame.symm]

theorem Inv.emit (h : Inv w) (row : AuditOutboxRow) :
    Later w (step cfg accepts w (.emit row)) ∧ Inv (step cfg accepts w (.emit row)) := by
  rw [step]
  split
  · exact ⟨later_of_same rfl rfl rfl, h⟩
  · rename_i hevent
    have hevent : w.events.get? (emitted row).id = none :=
      Option.not_isSome_iff_eq_none.mp hevent
    cases hget : w.outbox.get? (emitted row).id with
    | some old =>
      rw [Table.put_of_present (r := emitted row) hget]
      exact ⟨later_of_same rfl rfl rfl, h⟩
    | none =>
      have hnew := Table.get?_eq_none.mp hget
      have hlater : Later w { w with outbox := w.outbox.put (emitted row) } :=
        { row := fun old hold => .inl ⟨old, (Table.mem_put hget).mpr (.inl hold), rfl⟩
          event := fun _ _ h => h
          nextToken := Nat.le_refl _
          origin := by
            intro row' hrow'
            rcases (Table.mem_put hget).mp hrow' with hold | rfl
            · exact .inl ⟨row', hold, rfl, fun _ _ h => h⟩
            · exact .inr ⟨hnew, hevent, rfl⟩ }
      refine ⟨hlater, ?_, fun i p hp => (h.pass i p hp).later hlater⟩
      intro row' hrow'
      rcases (Table.mem_put hget).mp hrow' with hold | rfl
      · exact h.row row' hold
      · refine ⟨fun hprocessed => absurd rfl hprocessed, ?_, ?_⟩
        · intro event hfound
          rw [hevent] at hfound
          cases hfound
        · intro token hclaimed
          cases hclaimed

theorem Inv.update (h : Inv w) {nextToken : Nat} (htoken : w.nextToken ≤ nextToken)
    (hevent : ∀ row, (f.apply row).event = row.event)
    (hheld : ∀ row, ∀ token < w.nextToken, isHeld token (f.apply row) = true →
      isHeld token row = true)
    (hrow : ∀ row ∈ w.outbox.rows, p row = true → RowOk w.events w.nextToken row →
      RowOk w.events nextToken (f.apply row))
    (hnext : ∀ q, next = some q → PassOk { w with
      outbox := w.outbox.update p f
      pass := Function.update w.pass i next
      nextToken := nextToken } q) :
    Later w { w with
        outbox := w.outbox.update p f
        pass := Function.update w.pass i next
        nextToken := nextToken } ∧
      Inv { w with
        outbox := w.outbox.update p f
        pass := Function.update w.pass i next
        nextToken := nextToken } := by
  refine ⟨later_of_update rfl rfl htoken hevent hheld, ?_⟩
  refine h.move (later_of_update rfl rfl htoken hevent hheld) rfl ?_ hnext
  intro row' hrow'
  obtain ⟨row, hmem, ⟨hp, rfl⟩ | ⟨_, rfl⟩⟩ := Table.mem_update_iff.mp hrow'
  · exact hrow row hmem hp (h.row row hmem)
  · have hok := h.row row' hmem
    exact ⟨hok.copied, hok.once, fun token htok =>
      ⟨Nat.lt_of_lt_of_le (hok.token token htok).1 htoken, (hok.token token htok).2⟩⟩

theorem Inv.sweep (h : Inv w) (i : ι) (now : Int) :
    Later w (step cfg accepts w (.sweep i now)) ∧ Inv (step cfg accepts w (.sweep i now)) := by
  rw [step]
  split
  · refine h.update (Nat.le_refl _) (fun _ => rfl) (fun row token _ hheld => ?_)
      (fun row _ _ hok => ⟨hok.copied, hok.once, nofun⟩) ?_
    · exact absurd (isHeld_iff.mp hheld).1 nofun
    · intro q hq
      cases hq
      trivial
  · exact ⟨later_of_same rfl rfl rfl, h⟩

theorem Inv.claim (h : Inv w) (i : ι) (locked : List Nat) (now : Int) :
    Later w (step cfg accepts w (.claim i locked now)) ∧
      Inv (step cfg accepts w (.claim i locked now)) := by
  rw [step]
  split
  · dsimp only
    split
    · refine ⟨later_of_same rfl rfl rfl, ?_⟩
      refine h.move (later_of_same rfl rfl rfl) rfl h.row fun q hq => ?_
      cases hq
      trivial
    · refine h.update (Nat.le_succ _) (fun _ => rfl) (fun row token htoken hheld => ?_)
        (fun row _ _ hok => ⟨hok.copied, hok.once, fun token htoken => ?_⟩) ?_
      · have hnew : w.nextToken = token := Option.some.inj (isHeld_iff.mp hheld).1
        omega
      · obtain rfl : w.nextToken = token := Option.some.inj htoken
        exact ⟨Nat.lt_succ_self _, nofun⟩
      · intro q hq
        cases hq
        exact Nat.lt_succ_self _
  · exact ⟨later_of_same rfl rfl rfl, h⟩

theorem Inv.read (h : Inv w) (i : ι) :
    Later w (step cfg accepts w (.read i)) ∧ Inv (step cfg accepts w (.read i)) := by
  rw [step]
  split
  · rename_i token hpass
    refine ⟨later_of_same rfl rfl rfl, ?_⟩
    refine h.move (later_of_same rfl rfl rfl) rfl h.row fun q hq => ?_
    cases hq
    refine ⟨h.pass i _ hpass, fun row hrow hheld => ?_, fun event hevent => ?_⟩
    · exact mem_claimedEvents.mpr ⟨row, hrow, hheld, rfl⟩
    · obtain ⟨row, hrow, _, rfl⟩ := mem_claimedEvents.mp hevent
      refine ⟨fun row' hrow' hid => ?_, .inl ⟨row, hrow, rfl⟩⟩
      rw [w.outbox.eq_of_key_eq hrow' hrow hid]
  · exact ⟨later_of_same rfl rfl rfl, h⟩

theorem Inv.insert (h : Inv w) (i : ι) :
    Later w (step cfg accepts w (.insert i)) ∧ Inv (step cfg accepts w (.insert i)) := by
  rw [step]
  split
  · rename_i token events hpass
    obtain ⟨htoken, hread, hknown⟩ := h.pass i _ hpass
    split
    · have hlater : Later w { w with
          events := w.events.putAll events
          pass := Function.update w.pass i (some (.copied token)) } :=
        { row := fun row hrow => .inl ⟨row, hrow, rfl⟩
          event := fun _ _ hfound => Table.get?_putAll_of_some hfound
          nextToken := Nat.le_refl _
          origin := fun row hrow => .inl ⟨row, hrow, rfl, fun _ _ hheld => hheld⟩ }
      -- An event of the id of a row is its own, whether it was there or is copied now.
      have honce : ∀ row ∈ w.outbox.rows, ∀ event,
          (w.events.putAll events).get? row.id = some event → event = row.event := by
        intro row hrow event hfound
        rcases Table.mem_of_get?_putAll hfound with hold | hcopied
        · exact (h.row row hrow).once event hold
        · have hid : event.id = row.id := (Table.get?_eq_some.mp hfound).2
          exact ((hknown event hcopied).1 row hrow hid.symm).symm
      refine ⟨hlater, h.move hlater rfl (fun row hrow => ?_) fun q hq => ?_⟩
      · have hok := h.row row hrow
        exact ⟨fun hprocessed => hlater.event _ _ (hok.copied hprocessed), honce row hrow,
          hok.token⟩
      · cases hq
        refine ⟨htoken, fun row hrow hheld => ?_⟩
        obtain ⟨event, hfound⟩ := Table.get?_putAll_of_mem (t := w.events) (hread row hrow hheld)
        rw [← honce row hrow event hfound]
        exact hfound
    · refine ⟨later_of_same rfl rfl rfl, ?_⟩
      exact h.move (later_of_same rfl rfl rfl) rfl h.row nofun
  · exact ⟨later_of_same rfl rfl rfl, h⟩

theorem Inv.mark (h : Inv w) (i : ι) (now : Int) :
    Later w (step cfg accepts w (.mark i now)) ∧ Inv (step cfg accepts w (.mark i now)) := by
  rw [step]
  split
  · rename_i token hpass
    obtain ⟨_, hcopied⟩ := h.pass i _ hpass
    refine h.update (Nat.le_refl _) (fun _ => rfl) (fun row token _ hheld => ?_)
      (fun row hrow hheld hok => ⟨fun _ => hcopied row hrow hheld, hok.once, hok.token⟩) nofun
    exact absurd (isHeld_iff.mp hheld).2 nofun
  · exact ⟨later_of_same rfl rfl rfl, h⟩

theorem Inv.purge (h : Inv w) (i : ι) (now : Int) :
    Later w (step cfg accepts w (.purge i now)) ∧ Inv (step cfg accepts w (.purge i now)) := by
  rw [step]
  split
  · have hlater : Later w { w with
        outbox := w.outbox.delete (isPurgeable cfg now)
        pass := Function.update w.pass i none } :=
      { row := by
          intro row hrow
          cases hpurge : isPurgeable cfg now row with
          | false => exact .inl ⟨row, Table.mem_delete.mpr ⟨hrow, hpurge⟩, rfl⟩
          | true =>
            refine .inr ((h.row row hrow).copied fun hnone => ?_)
            rw [isPurgeable, hnone] at hpurge
            cases hpurge
        event := fun _ _ hfound => hfound
        nextToken := Nat.le_refl _
        origin := fun row hrow =>
          .inl ⟨row, (Table.mem_delete.mp hrow).1, rfl, fun _ _ hheld => hheld⟩ }
    refine ⟨hlater, h.move hlater rfl (fun row hrow => ?_) nofun⟩
    exact h.row row (Table.mem_delete.mp hrow).1
  · exact ⟨later_of_same rfl rfl rfl, h⟩

theorem Inv.crash (h : Inv w) (i : ι) :
    Later w (step cfg accepts w (.crash i)) ∧ Inv (step cfg accepts w (.crash i)) :=
  ⟨later_of_same rfl rfl rfl, h.move (later_of_same rfl rfl rfl) rfl h.row nofun⟩

theorem inv_step (h : Inv w) (action : Action ι) :
    Later w (step cfg accepts w action) ∧ Inv (step cfg accepts w action) := by
  cases action with
  | emit row => exact h.emit row
  | sweep i now => exact h.sweep i now
  | claim i locked now => exact h.claim i locked now
  | read i => exact h.read i
  | insert i => exact h.insert i
  | mark i now => exact h.mark i now
  | purge i now => exact h.purge i now
  | crash i => exact h.crash i

/-! ## No event is lost or doubled -/

omit [DecidableEq ι] in
theorem Kept.refl (w : AuditWorld ι) : Kept w w :=
  ⟨fun row hrow => .inl ⟨row, hrow, rfl⟩, fun _ _ h => h⟩

omit [DecidableEq ι] in
theorem Kept.trans {w'' : AuditWorld ι} (h : Kept w w') (h' : Kept w' w'') : Kept w w'' where
  row row hrow := by
    rcases h.row row hrow with ⟨row', hrow', hevent⟩ | hcopied
    · rcases h'.row row' hrow' with ⟨row'', hrow'', hevent'⟩ | hcopied
      · exact .inl ⟨row'', hrow'', hevent'.trans hevent⟩
      · rw [id_eq_of_event hevent, hevent] at hcopied
        exact .inr hcopied
    · exact .inr (h'.event _ _ hcopied)
  event id event hfound := h'.event id event (h.event id event hfound)

theorem safe (h : Inv w) (actions : List (Action ι)) :
    Kept w (run (step cfg accepts) w actions) ∧ Inv (run (step cfg accepts) w actions) := by
  refine run_rel (R := fun w w' => Inv w → Kept w w' ∧ Inv w') (fun w h => ⟨Kept.refl w, h⟩)
    (fun w w' w'' hfirst hsecond h => ?_) (fun w action h => ?_) w actions h
  · obtain ⟨hkept, h'⟩ := hfirst h
    obtain ⟨hkept', h''⟩ := hsecond h'
    exact ⟨hkept.trans hkept', h''⟩
  · obtain ⟨hlater, h'⟩ := @inv_step ι _ cfg accepts w h action
    exact ⟨hlater.toKept, h'⟩

omit [DecidableEq ι] in
theorem Start.inv (h : Start w) : Inv w where
  row row hrow := by
    obtain ⟨hemitted, hnone⟩ := h.fresh row hrow
    rw [← hemitted]
    refine ⟨fun hprocessed => absurd rfl hprocessed, fun event hfound => ?_, nofun⟩
    rw [show (emitted row).id = row.id from rfl, hnone] at hfound
    cases hfound
  pass i p hp := by
    rw [h.pass i] at hp
    cases hp

/-! ## Rows that the database treats alike -/

/-- The rows of one claim are treated alike, and only rejected events are in a rejected copy. -/
structure Uniform (accepts : AuditEventRow → Bool) (w : AuditWorld ι) : Prop where
  row : ∀ row ∈ w.outbox.rows, ∀ row' ∈ w.outbox.rows, ∀ token, row.claimToken = some token →
    row'.claimToken = some token → accepts row.event = accepts row'.event
  copying : ∀ i token events, w.pass i = some (.copying token events) →
    ∀ event ∈ events, ∀ event' ∈ events, accepts event = accepts event'
  rejected : ∀ events ∈ w.rejected, ∀ event ∈ events, accepts event = false

theorem Uniform.keep (h : Uniform accepts w)
    (hrow : ∀ row' ∈ w'.outbox.rows, row'.claimToken ≠ none →
      ∃ row ∈ w.outbox.rows, row'.event = row.event ∧ row'.claimToken = row.claimToken)
    (hpass : w'.pass = Function.update w.pass i next)
    (hnext : ∀ token events, next ≠ some (.copying token events))
    (hrejected : w'.rejected = w.rejected) : Uniform accepts w' where
  row row hmem row' hmem' token htoken htoken' := by
    obtain ⟨old, hold, hevent, hclaim⟩ := hrow row hmem (by rw [htoken]; nofun)
    obtain ⟨old', hold', hevent', hclaim'⟩ := hrow row' hmem' (by rw [htoken']; nofun)
    rw [hevent, hevent']
    exact h.row old hold old' hold' token (hclaim ▸ htoken) (hclaim' ▸ htoken')
  copying j token events hcopying := by
    rw [hpass] at hcopying
    rcases pass_of_update hcopying with hold | hnew
    · exact h.copying j token events hold
    · exact absurd hnew (hnext token events)
  rejected := hrejected ▸ h.rejected

theorem claims_of_update (hf : ∀ row, (f.apply row).event = row.event ∧
      ((f.apply row).claimToken = none ∨ (f.apply row).claimToken = row.claimToken)) :
    ∀ row' ∈ (outbox.update p f).rows, row'.claimToken ≠ none →
      ∃ row ∈ outbox.rows, row'.event = row.event ∧ row'.claimToken = row.claimToken := by
  intro row' hrow' hclaim
  obtain ⟨row, hrow, ⟨_, rfl⟩ | ⟨_, rfl⟩⟩ := Table.mem_update_iff.mp hrow'
  · exact ⟨row, hrow, (hf row).1, (hf row).2.resolve_left hclaim⟩
  · exact ⟨row', hrow, rfl, rfl⟩

theorem Uniform.claim (h : Uniform accepts w) (hinv : Inv w) {now : Int}
    (hunmixed : UnmixedClaim cfg accepts w (.claim i locked now)) :
    Uniform accepts (step cfg accepts w (.claim i locked now)) := by
  rw [step]
  split
  · rename_i hpass
    have hunmixed := hunmixed hpass
    dsimp only
    split
    · exact h.keep (fun row hrow _ => ⟨row, hrow, rfl, rfl⟩) rfl nofun rfl
    · -- A row that is claimed now comes from the batch; others have old tokens.
      have hclaim : ∀ row' ∈ (w.outbox.update
          (fun row => ((claimBatch cfg w.outbox locked).map (·.id)).contains row.id)
          (claimSet w.nextToken now)).rows,
          (∃ row ∈ claimBatch cfg w.outbox locked, row'.event = row.event ∧
            row'.claimToken = some w.nextToken) ∨
          (row' ∈ w.outbox.rows ∧ row'.claimToken ≠ some w.nextToken) := by
        intro row' hrow'
        obtain ⟨row, hrow, ⟨hid, rfl⟩ | ⟨_, rfl⟩⟩ := Table.mem_update_iff.mp hrow'
        · exact .inl ⟨row, mem_claimBatch_of_id hrow hid, rfl, rfl⟩
        · refine .inr ⟨hrow, fun htoken => ?_⟩
          exact absurd ((hinv.row row' hrow).token _ htoken).1 (Nat.lt_irrefl _)
      refine ⟨fun row hrow row' hrow' token htoken htoken' => ?_, fun j token events hcopying => ?_,
        h.rejected⟩
      · rcases hclaim row hrow with ⟨old, hold, hevent, hnew⟩ | ⟨hold, hother⟩
        · rcases hclaim row' hrow' with ⟨old', hold', hevent', _⟩ | ⟨_, hother'⟩
          · rw [hevent, hevent']
            exact hunmixed old hold old' hold'
          · exact absurd (htoken'.trans (htoken.symm.trans hnew)) hother'
        · rcases hclaim row' hrow' with ⟨_, _, _, hnew'⟩ | ⟨hold', _⟩
          · exact absurd (htoken.trans (htoken'.symm.trans hnew')) hother
          · exact h.row row hold row' hold' token htoken htoken'
      · rcases pass_of_update hcopying with hold | hnew
        · exact h.copying j token events hold
        · cases hnew
  · exact h

theorem Uniform.read (h : Uniform accepts w) (i : ι) :
    Uniform accepts (step cfg accepts w (.read i)) := by
  rw [step]
  split
  · refine ⟨h.row, fun j token events hcopying => ?_, h.rejected⟩
    rcases pass_of_update hcopying with hold | hnew
    · exact h.copying j token events hold
    · obtain ⟨rfl, rfl⟩ := DrainPass.copying.inj (Option.some.inj hnew)
      intro event hevent event' hevent'
      obtain ⟨row, hrow, hheld, rfl⟩ := mem_claimedEvents.mp hevent
      obtain ⟨row', hrow', hheld', rfl⟩ := mem_claimedEvents.mp hevent'
      exact h.row row hrow row' hrow' _ (isHeld_iff.mp hheld).1 (isHeld_iff.mp hheld').1
  · exact h

theorem Uniform.insert (h : Uniform accepts w) (i : ι) :
    Uniform accepts (step cfg accepts w (.insert i)) := by
  rw [step]
  split
  · rename_i token events hpass
    split
    · exact h.keep (fun row hrow _ => ⟨row, hrow, rfl, rfl⟩) rfl nofun rfl
    · rename_i hreject
      have hsame := h.copying i token events hpass
      have hnone : ∀ event ∈ events, accepts event = false := by
        intro event hevent
        rw [Bool.eq_false_iff]
        intro haccept
        refine hreject (List.all_eq_true.mpr fun event' hevent' => ?_)
        rw [← hsame event hevent event' hevent']
        exact haccept
      refine ⟨h.row, fun j token' events' hcopying => ?_, fun events' hevents' => ?_⟩
      · rcases pass_of_update hcopying with hold | hnew
        · exact h.copying j token' events' hold
        · cases hnew
      · rcases List.mem_cons.mp hevents' with rfl | hold
        · exact hnone
        · exact h.rejected events' hold
  · exact h

theorem Uniform.emit (h : Uniform accepts w) (row : AuditOutboxRow) :
    Uniform accepts (step cfg accepts w (.emit row)) := by
  rw [step]
  split
  · exact h
  · have hclaimed : ∀ row' ∈ (w.outbox.put (emitted row)).rows, row'.claimToken ≠ none →
        row' ∈ w.outbox.rows := by
      intro row' hrow' hclaim
      cases hget : w.outbox.get? (emitted row).id with
      | some old =>
        rwa [Table.put_of_present (r := emitted row) hget] at hrow'
      | none =>
        rcases (Table.mem_put hget).mp hrow' with hold | rfl
        · exact hold
        · exact absurd rfl hclaim
    refine ⟨fun row' hrow' row'' hrow'' token htoken htoken' => ?_, h.copying, h.rejected⟩
    exact h.row row' (hclaimed row' hrow' (by simp [htoken])) row''
      (hclaimed row'' hrow'' (by simp [htoken'])) token htoken htoken'

theorem uniform_step (hinv : Inv w) (h : Uniform accepts w) {action : Action ι}
    (hunmixed : UnmixedClaim cfg accepts w action) :
    Uniform accepts (step cfg accepts w action) := by
  cases action with
  | emit row => exact h.emit row
  | sweep i now =>
    rw [step]
    split
    · exact h.keep (claims_of_update fun _ => ⟨rfl, .inl rfl⟩) rfl nofun rfl
    · exact h
  | claim i locked now => exact h.claim hinv hunmixed
  | read i => exact h.read i
  | insert i => exact h.insert i
  | mark i now =>
    rw [step]
    split
    · exact h.keep (claims_of_update fun _ => ⟨rfl, .inr rfl⟩) rfl nofun rfl
    · exact h
  | purge i now =>
    rw [step]
    split
    · exact h.keep (fun row hrow _ => ⟨row, (Table.mem_delete.mp hrow).1, rfl, rfl⟩) rfl nofun rfl
    · exact h
  | crash i => exact h.keep (fun row hrow _ => ⟨row, hrow, rfl, rfl⟩) rfl nofun rfl

/-! ## The law -/

theorem outbox_of_pass (now : Int) (hpass : w.pass i = some (.claimed token)) :
    (run (step cfg accepts) w [.read i, .insert i, .mark i now]).outbox =
      if (claimedEvents w.outbox token).all accepts then
        w.outbox.update (isHeld token) (markSet now)
      else w.outbox := by
  show (step cfg accepts (step cfg accepts (step cfg accepts w (.read i)) (.insert i))
    (.mark i now)).outbox = _
  rw [show step cfg accepts w (.read i) = { w with
    pass := Function.update w.pass i (some (.copying token (claimedEvents w.outbox token))) } by
      simp only [step, hpass]]
  by_cases hall : (claimedEvents w.outbox token).all accepts = true
  · simp only [step, Function.update_self, hall, if_true]
  · simp only [step, Function.update_self, hall, if_false, Bool.false_eq_true]

theorem drainLaw (h : Inv w) (huniform : Uniform accepts w) : DrainLaw cfg accepts w where
  copied row hrow := (h.row row hrow).copied
  once row hrow := (h.row row hrow).once
  released row hrow hclaim := by
    obtain ⟨token, htoken⟩ := Option.ne_none_iff_exists'.mp hclaim
    exact ((h.row row hrow).token token htoken).2
  ownAttempts row hrow _ haccept _ events hevents hevent := by
    rw [huniform.rejected events hevents row.event hevent] at haccept
    cases haccept
  completes i token now hpass row hrow hheld haccept := by
    have hall : (claimedEvents w.outbox token).all accepts = true := by
      refine List.all_eq_true.mpr fun event hevent => ?_
      obtain ⟨row', hrow', hheld', rfl⟩ := mem_claimedEvents.mp hevent
      rw [huniform.row row' hrow' row hrow token (isHeld_iff.mp hheld').1 (isHeld_iff.mp hheld).1]
      exact haccept
    rw [outbox_of_pass now hpass, if_pos hall]
    exact ⟨(markSet now).apply row, Table.mem_update_iff.mpr ⟨row, hrow, .inl ⟨hheld, rfl⟩⟩, rfl,
      nofun⟩

theorem unmixed_of_drainLaw {now : Int}
    (hlaw : DrainLaw cfg accepts (step cfg accepts w (.claim i locked now))) :
    UnmixedClaim cfg accepts w (.claim i locked now) := by
  intro hpass
  -- It is enough that with one row that is taken all are.
  suffices hall : ∀ row ∈ claimBatch cfg w.outbox locked, accepts row.event = true →
      ∀ row' ∈ claimBatch cfg w.outbox locked, accepts row'.event = true by
    intro row hrow row' hrow'
    cases haccept : accepts row.event with
    | true => exact (hall row hrow haccept row' hrow').symm
    | false =>
      cases haccept' : accepts row'.event with
      | false => rfl
      | true => exact haccept.symm.trans (hall row' hrow' haccept' row hrow)
  intro row hrow haccept row' hrow'
  by_contra hreject
  have hbatch : ((claimBatch cfg w.outbox locked).map (·.id)).isEmpty = false := by
    rw [List.isEmpty_eq_false_iff]
    exact List.ne_nil_of_mem (List.mem_map_of_mem hrow)
  have hstep : step cfg accepts w (.claim i locked now) = { w with
      outbox := w.outbox.update
        (fun row => ((claimBatch cfg w.outbox locked).map (·.id)).contains row.id)
        (claimSet w.nextToken now)
      pass := Function.update w.pass i (some (.claimed w.nextToken))
      nextToken := w.nextToken + 1 } := by
    simp only [step, hpass, hbatch, if_false, Bool.false_eq_true]
  rw [hstep] at hlaw
  have hclaimed : ∀ row ∈ claimBatch cfg w.outbox locked,
      (claimSet w.nextToken now).apply row ∈ (w.outbox.update
        (fun row => ((claimBatch cfg w.outbox locked).map (·.id)).contains row.id)
        (claimSet w.nextToken now)).rows ∧
      isHeld w.nextToken ((claimSet w.nextToken now).apply row) = true := by
    intro row hrow
    refine ⟨Table.mem_update_iff.mpr ⟨row, (mem_claimBatch hrow).1, .inl ⟨?_, rfl⟩⟩, ?_⟩
    · exact List.contains_iff_mem.mpr (List.mem_map_of_mem hrow)
    · exact isHeld_iff.mpr ⟨rfl, (mem_claimBatch hrow).2.1⟩
  obtain ⟨hmem, hheld⟩ := hclaimed row hrow
  obtain ⟨hmem', hheld'⟩ := hclaimed row' hrow'
  obtain ⟨later, hlater, hevent, hprocessed⟩ := hlaw.completes i w.nextToken now
    (Function.update_self ..) _ hmem hheld haccept
  rw [outbox_of_pass now (Function.update_self ..), if_neg] at hlater
  · obtain rfl := Table.eq_of_key_eq _ hlater hmem (id_eq_of_event hevent)
    exact hprocessed (mem_claimBatch hrow).2.1
  · intro hall
    exact hreject (List.all_eq_true.mp hall _ (mem_claimedEvents.mpr ⟨_, hmem', hheld', rfl⟩))

/-- The outbox keeps its promises exactly in the runs whose claims are not mixed. What it loses or
doubles is nothing in any run. -/
theorem auditLaw_iff (hstart : Start w) (actions : List (Action ι)) :
    AuditLaw cfg accepts w actions ↔
      Guarded (step cfg accepts) (UnmixedClaim cfg accepts) w actions := by
  constructor
  · intro hlaw
    refine guarded_iff.mpr fun pre action post hactions => ?_
    cases action with
    | claim i locked now =>
      refine unmixed_of_drainLaw ?_
      have hstate := hlaw.state (pre ++ [.claim i locked now]) post (by rw [hactions]; simp)
      rwa [run_append] at hstate
    | _ => trivial
  · intro hguard
    have huniform : Uniform accepts w := by
      refine ⟨fun row hrow _ _ token htoken => ?_, fun i token events hcopying => ?_, ?_⟩
      · rw [← (hstart.fresh row hrow).1] at htoken
        cases htoken
      · rw [hstart.pass i] at hcopying
        cases hcopying
      · rw [hstart.rejected]
        nofun
    refine ⟨fun pre post hactions => ?_, fun pre mid post hactions => ?_⟩
    · rw [hactions] at hguard
      obtain ⟨hinv, huniform⟩ := Guarded.invariant (I := fun w => Inv w ∧ Uniform accepts w)
        (fun w action h hunmixed => ⟨(inv_step h.1 action).2, uniform_step h.1 h.2 hunmixed⟩)
        ⟨hstart.inv, huniform⟩ hguard.take
      exact drainLaw hinv huniform
    · rw [run_append]
      exact (safe (safe hstart.inv pre).2 mid).1

/-! ## A batch with a rejected event -/

def roleChanged : AuditOutboxRow where
  id := 1
  tenantId := 7
  eventType := "role_changed"
  occurredAt := 0
  enqueuedAt := 0

def poisoned : AuditOutboxRow where
  id := 2
  tenantId := 7
  eventType := "poisoned"
  occurredAt := 0
  enqueuedAt := 1

def acceptsAllButPoisoned (event : AuditEventRow) : Bool := event.id != 2

def newRows (outbox : Table AuditOutboxRow) : AuditWorld Unit where
  outbox := outbox
  events := Table.empty
  pass _ := none
  nextToken := 0
  rejected := []

/-- One pass over the good row alone, and a later one that finds nothing. -/
theorem auditLaw_roleChanged :
    AuditLaw {} acceptsAllButPoisoned (newRows ⟨[roleChanged], by decide⟩)
      [.sweep () 0, .claim () [] 0, .read (), .insert (), .mark () 0, .sweep () 900000000,
        .claim () [] 900000000, .purge () 900000000] := by
  refine (auditLaw_iff ⟨by decide, fun _ => rfl, rfl⟩ _).mpr ?_
  refine ⟨trivial, fun _ => ?_, trivial, trivial, trivial, trivial, fun _ => ?_, trivial, trivial⟩
  · decide
  · decide

/-- The passes of one worker, each after the claim of the last one is stale. -/
def passes (n : Nat) : List (Action Unit) :=
  (List.range n).flatMap fun k =>
    [.sweep () (400000 * k), .claim () [] (400000 * k), .read (), .insert ()]

/-- After eight passes over a batch with the other row, the good row is given up. -/
theorem poisoned_batch :
    ¬AuditLaw {} acceptsAllButPoisoned (newRows ⟨[roleChanged, poisoned], by decide⟩)
      (passes 8) := by
  intro hlaw
  have hstate := hlaw.state (passes 8) [] (List.append_nil _).symm
  have hgood := hstate.ownAttempts
    { roleChanged with claimToken := some 7, claimedAt := some 2800000, attempts := 8 }
    (by decide +kernel) rfl rfl (by decide) [roleChanged.event, poisoned.event] (by decide +kernel)
  exact hgood (by decide)

end Prequest.Privacy.Audit
