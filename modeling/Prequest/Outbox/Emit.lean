import Prequest.Lib.Table

/-!
# `outbox.emit`

An event is written to the outbox inside the transaction of the business write
it announces. The table is unique on the idempotency key: a second emit of the
same key with the same payload is silent, and with another payload it raises.

`K` is the type of idempotency keys and `P` of payloads. A payload names its own
event type, so equal payloads belong to events of one type.
-/

namespace Prequest.Outbox

open Prequest.Lib

/-- A row of `outbox.events`. -/
structure Event (K P : Type) where
  idempotencyKey : K
  payload : P
  deriving DecidableEq, Repr

instance {K P : Type} : Keyed (Event K P) K where
  key := Event.idempotencyKey

/-- `idempotency key collision`, the one error of `outbox.emit`. -/
inductive EmitError where
  | keyCollision
  deriving DecidableEq, Repr

section

variable {K P : Type} [DecidableEq K] [DecidableEq P]

/-- Insert an event, or leave the outbox as it is when the same event is there already. -/
def emit (outbox : Table (Event K P)) (e : Event K P) : Except EmitError (Table (Event K P)) :=
  match outbox.get? e.idempotencyKey with
  | none => .ok (outbox.put e)
  | some existing => if existing.payload = e.payload then .ok outbox else .error .keyCollision

/-- The emits of one command, in order. -/
def emitAll (outbox : Table (Event K P)) (es : List (Event K P)) :
    Except EmitError (Table (Event K P)) :=
  es.foldlM emit outbox

variable {outbox outbox' : Table (Event K P)}

theorem emit_eq_ok {e : Event K P} (h : emit outbox e = .ok outbox') : outbox' = outbox.put e := by
  unfold emit at h
  cases hget : outbox.get? e.idempotencyKey with
  | none =>
    rw [hget] at h
    cases h
    rfl
  | some existing =>
    rw [hget] at h
    simp only at h
    split at h
    · cases h
      exact (Table.put_of_present hget).symm
    · cases h

theorem mem_of_emit {e : Event K P} (h : emit outbox e = .ok outbox') (x : Event K P) :
    x ∈ outbox'.rows ↔ x ∈ outbox.rows ∨ x = e := by
  unfold emit at h
  cases hget : outbox.get? e.idempotencyKey with
  | none =>
    rw [hget] at h
    cases h
    exact Table.mem_put hget
  | some existing =>
    rw [hget] at h
    simp only at h
    split at h
    · rename_i hsame
      cases h
      obtain ⟨hmem, hkey⟩ := Table.get?_eq_some.mp hget
      have hexisting : existing = e := by
        cases existing
        cases e
        simp only [Event.mk.injEq]
        exact ⟨hkey, hsame⟩
      constructor
      · exact Or.inl
      · intro hx
        rcases hx with hx | rfl
        · exact hx
        · rw [← hexisting]
          exact hmem
    · cases h

variable {es : List (Event K P)}

theorem emitAll_eq_ok
    (h : emitAll outbox es = .ok outbox') : outbox' = es.foldl Table.put outbox := by
  induction es generalizing outbox with
  | nil =>
    cases h
    rfl
  | cons e es ih =>
    simp only [emitAll, List.foldlM_cons] at h
    cases hemit : emit outbox e with
    | error err =>
      rw [hemit] at h
      cases h
    | ok mid =>
      rw [hemit] at h
      rw [List.foldl_cons, ← emit_eq_ok hemit]
      exact ih h

theorem emitAll_of_fresh (hkeys : (es.map Event.idempotencyKey).Nodup)
    (hfresh : ∀ e ∈ es, outbox.get? e.idempotencyKey = none) :
    ∃ outbox', emitAll outbox es = .ok outbox' := by
  induction es generalizing outbox with
  | nil => exact ⟨outbox, rfl⟩
  | cons e es ih =>
    obtain ⟨hnotIn, hkeys⟩ := List.nodup_cons.mp hkeys
    have hnone := hfresh e List.mem_cons_self
    have hemit : emit outbox e = .ok (outbox.put e) := by
      unfold emit
      rw [hnone]
    have hput : ∀ e' ∈ es, (outbox.put e).get? e'.idempotencyKey = none := by
      intro e' he'
      have hother : e'.idempotencyKey ≠ Keyed.key e := fun heq =>
        hnotIn (List.mem_map.mpr ⟨e', he', heq⟩)
      rw [Table.get?_put hnone, if_neg hother]
      exact hfresh e' (List.mem_cons_of_mem e he')
    obtain ⟨outbox', hrest⟩ := ih hkeys hput
    refine ⟨outbox', ?_⟩
    unfold emitAll at hrest ⊢
    rw [List.foldlM_cons, hemit]
    exact hrest

theorem mem_of_emitAll (h : emitAll outbox es = .ok outbox') (x : Event K P) :
    x ∈ outbox'.rows ↔ x ∈ outbox.rows ∨ x ∈ es := by
  induction es generalizing outbox with
  | nil =>
    cases h
    simp
  | cons e es ih =>
    simp only [emitAll, List.foldlM_cons] at h
    cases hemit : emit outbox e with
    | error err =>
      rw [hemit] at h
      cases h
    | ok mid =>
      rw [hemit] at h
      rw [ih h, mem_of_emit hemit, List.mem_cons, or_assoc]

/-- Events can be emitted, in whatever order, when no two of them and of those there share a key. -/
theorem exists_emitAll_iff : (∃ outbox', emitAll outbox es = .ok outbox') ↔
    ∀ x, (x ∈ outbox.rows ∨ x ∈ es) → ∀ y, (y ∈ outbox.rows ∨ y ∈ es) →
      x.idempotencyKey = y.idempotencyKey → x = y := by
  constructor
  · rintro ⟨outbox', h⟩ x hx y hy hkey
    exact outbox'.eq_of_key_eq ((mem_of_emitAll h x).mpr hx) ((mem_of_emitAll h y).mpr hy) hkey
  · intro h
    induction es generalizing outbox with
    | nil => exact ⟨outbox, rfl⟩
    | cons e es ih =>
      obtain ⟨mid, hemit⟩ : ∃ mid, emit outbox e = .ok mid := by
        unfold emit
        cases hget : outbox.get? e.idempotencyKey with
        | none => exact ⟨_, rfl⟩
        | some r =>
          obtain ⟨hr, hkey⟩ := Table.get?_eq_some.mp hget
          have hsame : r = e := h r (.inl hr) e (.inr List.mem_cons_self) hkey
          exact ⟨outbox, if_pos (by rw [hsame])⟩
      have hlift : ∀ x, x ∈ mid.rows ∨ x ∈ es → x ∈ outbox.rows ∨ x ∈ e :: es := by
        intro x hx
        rw [mem_of_emit hemit] at hx
        rw [List.mem_cons]
        tauto
      obtain ⟨outbox', hrest⟩ := @ih mid fun x hx y hy => h x (hlift x hx) y (hlift y hy)
      refine ⟨outbox', ?_⟩
      simp only [emitAll, List.foldlM_cons, hemit]
      exact hrest

end

end Prequest.Outbox
