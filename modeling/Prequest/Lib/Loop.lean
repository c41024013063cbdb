import Mathlib.Data.List.Forall2

/-!
# Loops that can fail

A command of the database that treats a list of items stops at the first error
and then has done nothing. `loop` carries the state from one item to the next
and collects one output for each; a loop that only reads is `List.mapM`.

* `forall₂_exists_left`, `exists_forall₂`, `forall₂_find?`: items and outputs belong together.
* `bind_eq_ok`: a sequence of two steps that may throw.
* `mapM_eq_ok`: a loop that reads gives one output for each item.
* `loop_eq_ok`: a loop ends exactly when each item can be treated in its state.
* `Steps.invariant`: what every item keeps, the loop keeps.
-/

namespace Prequest.Lib

universe u v w

variable {σ : Type u} {α β : Type v} {ε : Type w} {R : α → β → Prop}

theorem forall₂_exists_left {as : List α} {bs : List β} (h : List.Forall₂ R as bs) {b : β}
    (hb : b ∈ bs) : ∃ a ∈ as, R a b := by
  induction h with
  | nil => cases hb
  | cons head _ ih =>
    rcases List.mem_cons.mp hb with rfl | hb
    · exact ⟨_, List.mem_cons_self, head⟩
    · obtain ⟨a, ha, hrel⟩ := ih hb
      exact ⟨a, List.mem_cons_of_mem _ ha, hrel⟩

theorem forall₂_exists_right {as : List α} {bs : List β} (h : List.Forall₂ R as bs) {a : α}
    (ha : a ∈ as) : ∃ b ∈ bs, R a b := by
  obtain ⟨b, hb, hrel⟩ := forall₂_exists_left h.flip ha
  exact ⟨b, hb, hrel⟩

theorem exists_forall₂ {as : List α} (h : ∀ a ∈ as, ∃ b, R a b) : ∃ bs, List.Forall₂ R as bs := by
  induction as with
  | nil => exact ⟨[], .nil⟩
  | cons a as ih =>
    obtain ⟨b, hrel⟩ := h a List.mem_cons_self
    obtain ⟨bs, hrest⟩ := ih fun a' ha' => h a' (List.mem_cons_of_mem a ha')
    exact ⟨b :: bs, .cons hrel hrest⟩

theorem forall₂_find? {p : α → Bool} {q : β → Bool} {as : List α} {bs : List β}
    (h : List.Forall₂ R as bs) (hpq : ∀ a b, R a b → p a = q b) {a : α} (ha : as.find? p = some a) :
    ∃ b, bs.find? q = some b ∧ R a b := by
  induction h with
  | nil => cases ha
  | @cons a' b as bs head _ ih =>
    rw [List.find?_cons] at ha ⊢
    rw [← hpq a' b head]
    cases hp : p a' with
    | true =>
      rw [hp] at ha
      cases ha
      exact ⟨b, rfl, head⟩
    | false =>
      rw [hp] at ha
      exact ih ha

theorem bind_eq_ok {γ δ : Type v} {x : Except ε γ} {f : γ → Except ε δ} {d : δ} :
    (x >>= f) = .ok d ↔ ∃ c, x = .ok c ∧ f c = .ok d := by
  cases x with
  | error e => exact iff_of_false nofun fun ⟨_, h, _⟩ => by cases h
  | ok c => exact ⟨fun h => ⟨c, rfl, h⟩, fun ⟨_, h, hf⟩ => by cases h; exact hf⟩

theorem map_eq_ok {γ δ : Type v} {x : Except ε γ} {f : γ → δ} {d : δ} :
    x.map f = .ok d ↔ ∃ c, x = .ok c ∧ f c = d := by
  cases x with
  | error e => exact iff_of_false nofun fun ⟨_, h, _⟩ => by cases h
  | ok c => exact ⟨fun h => ⟨c, rfl, Except.ok.inj h⟩, fun ⟨_, h, hf⟩ => by cases h; rw [← hf]; rfl⟩

theorem mapM_eq_ok {α β : Type v} {f : α → Except ε β} {as : List α} {bs : List β} :
    as.mapM f = .ok bs ↔ List.Forall₂ (fun a b => f a = .ok b) as bs := by
  induction as generalizing bs with
  | nil =>
    rw [List.mapM_nil, List.forall₂_nil_left_iff]
    constructor
    · intro h
      cases h
      rfl
    · rintro rfl
      rfl
  | cons a as ih =>
    rw [List.mapM_cons, List.forall₂_cons_left_iff]
    constructor
    · intro h
      cases ha : f a with
      | error e =>
        rw [ha] at h
        cases h
      | ok b =>
        cases has : as.mapM f with
        | error e =>
          rw [ha, has] at h
          cases h
        | ok bs' =>
          rw [ha, has] at h
          cases h
          exact ⟨b, bs', rfl, ih.mp has, rfl⟩
    · rintro ⟨b, bs', ha, has, rfl⟩
      rw [ha, ih.mpr has]
      rfl

/-- Treat the items in order, from the state that the one before leaves. -/
def loop (step : σ → α → Except ε (σ × β)) : σ → List α → Except ε (σ × List β)
  | s, [] => .ok (s, [])
  | s, a :: as =>
      match step s a with
      | .error e => .error e
      | .ok (s', b) =>
          match loop step s' as with
          | .error e => .error e
          | .ok (s'', bs) => .ok (s'', b :: bs)

/-- The items were treated one after the other, with these outputs. -/
inductive Steps (step : σ → α → Except ε (σ × β)) : σ → List α → σ → List β → Prop where
  | nil (s : σ) : Steps step s [] s []
  | cons {s s' s'' : σ} {a : α} {as : List α} {b : β} {bs : List β}
      (head : step s a = .ok (s', b)) (tail : Steps step s' as s'' bs) :
      Steps step s (a :: as) s'' (b :: bs)

variable {step : σ → α → Except ε (σ × β)}

theorem loop_eq_ok {s s' : σ} {as : List α} {bs : List β} :
    loop step s as = .ok (s', bs) ↔ Steps step s as s' bs := by
  induction as generalizing s bs with
  | nil =>
    constructor
    · intro h
      cases h
      exact .nil _
    · intro h
      cases h
      rfl
  | cons a as ih =>
    constructor
    · intro h
      simp only [loop] at h
      split at h
      · cases h
      rename_i hstep
      split at h
      · cases h
      rename_i hrest
      cases h
      exact .cons hstep (ih.mp hrest)
    · intro h
      cases h with
      | cons hstep hrest => simp only [loop, hstep, ih.mpr hrest]

theorem Steps.invariant {I : σ → Prop} {s s' : σ} {as : List α} {bs : List β}
    (h : Steps step s as s' bs)
    (hstep : ∀ a ∈ as, ∀ s s' b, I s → step s a = .ok (s', b) → I s') (hs : I s) : I s' := by
  induction h with
  | nil s => exact hs
  | cons head tail ih =>
    refine ih ?_ (hstep _ List.mem_cons_self _ _ _ hs head)
    intro a ha
    exact hstep a (List.mem_cons_of_mem _ ha)

end Prequest.Lib
