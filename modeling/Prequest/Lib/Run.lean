import Mathlib.Data.List.Basic

/-!
# Runs of a step function

A system with state `σ` that reads one input `α` at a time is a function
`f : σ → α → σ`, and a run is a fold of it over a list of inputs. A refused
input is a step that returns the state unchanged.

* `Guarded.invariant`: the induction rule. What holds at the start and is kept
  by every guarded step holds at the end, and by `Guarded.take` in every
  state on the way.
* `invariant_iff_guarded`: the same in both directions, for a guard that is exact.
* `run_rel`: a reflexive and transitive relation that every step keeps relates
  the first state to the last.
-/

namespace Prequest.Lib

variable {σ α : Type*} {f : σ → α → σ}

/-- The state after reading the inputs of `as` in order. -/
def run (f : σ → α → σ) (s : σ) (as : List α) : σ := as.foldl f s

@[simp] theorem run_nil (s : σ) : run f s [] = s := rfl

@[simp] theorem run_cons (s : σ) (a : α) (as : List α) :
    run f s (a :: as) = run f (f s a) as := rfl

theorem run_append (s : σ) (as bs : List α) : run f s (as ++ bs) = run f (run f s as) bs :=
  List.foldl_append ..

/-- Every input of `as` meets `ok` in the state in which it is read. -/
def Guarded (f : σ → α → σ) (ok : σ → α → Prop) : σ → List α → Prop
  | _, [] => True
  | s, a :: as => ok s a ∧ Guarded f ok (f s a) as

instance Guarded.decidable (f : σ → α → σ) (ok : σ → α → Prop) [∀ s a, Decidable (ok s a)] :
    ∀ s as, Decidable (Guarded f ok s as)
  | _, [] => .isTrue trivial
  | s, a :: as =>
      have := Guarded.decidable f ok (f s a) as
      inferInstanceAs (Decidable (ok s a ∧ Guarded f ok (f s a) as))

variable {ok : σ → α → Prop} {s : σ} {as : List α} {I : σ → Prop}

theorem guarded_append {as bs : List α} :
    Guarded f ok s (as ++ bs) ↔ Guarded f ok s as ∧ Guarded f ok (run f s as) bs := by
  induction as generalizing s with
  | nil => simp [Guarded]
  | cons a as ih => simp [Guarded, ih, and_assoc]

theorem Guarded.take {as bs : List α} (h : Guarded f ok s (as ++ bs)) : Guarded f ok s as :=
  (guarded_append.mp h).1

theorem guarded_iff :
    Guarded f ok s as ↔ ∀ pre a post, as = pre ++ a :: post → ok (run f s pre) a := by
  constructor
  · rintro h pre a post rfl
    exact (guarded_append.mp h).2.1
  · intro h
    induction as generalizing s with
    | nil => trivial
    | cons a as ih =>
      refine ⟨h [] a as rfl, ih ?_⟩
      intro pre b post has
      exact h (a :: pre) b post (by rw [has]; rfl)

theorem guarded_of_forall {P : α → Prop} (hP : ∀ a ∈ as, P a) : Guarded f (fun _ => P) s as :=
  guarded_iff.mpr fun _ a _ has => hP a (by rw [has]; simp)

theorem Guarded.and_forall {P : α → Prop} (h : Guarded f ok s as) (hP : ∀ a ∈ as, P a) :
    Guarded f (fun s a => P a ∧ ok s a) s as := by
  induction as generalizing s with
  | nil => trivial
  | cons a as ih =>
    exact ⟨⟨hP a List.mem_cons_self, h.1⟩, ih h.2 fun b hb => hP b (List.mem_cons_of_mem a hb)⟩

theorem Guarded.invariant (step : ∀ s a, I s → ok s a → I (f s a)) (hs : I s)
    (h : Guarded f ok s as) : I (run f s as) := by
  induction as generalizing s with
  | nil => exact hs
  | cons a as ih => exact ih (step s a hs h.1) h.2

/-- Where each step of a run keeps an invariant exactly on a guard, the invariant holds in every
state of the run exactly when the run meets the guard. -/
theorem invariant_iff_guarded {P : σ → α → Prop}
    (step : ∀ s a, I s → P s a → (I (f s a) ↔ ok s a)) (hs : I s) (hP : Guarded f P s as) :
    (∀ pre post, as = pre ++ post → I (run f s pre)) ↔ Guarded f ok s as := by
  induction as generalizing s with
  | nil =>
    refine iff_of_true ?_ trivial
    intro pre post hsplit
    obtain ⟨rfl, _⟩ := List.append_eq_nil_iff.mp hsplit.symm
    exact hs
  | cons a as ih =>
    constructor
    · intro h
      have hnext : I (f s a) := h [a] as rfl
      refine ⟨(step s a hs hP.1).mp hnext, (ih hnext hP.2).mp ?_⟩
      intro pre post hsplit
      exact h (a :: pre) post (by rw [hsplit]; rfl)
    · intro h pre post hsplit
      have hnext : I (f s a) := (step s a hs hP.1).mpr h.1
      cases pre with
      | nil => exact hs
      | cons b pre =>
        obtain ⟨rfl, hrest⟩ := List.cons.inj hsplit
        exact (ih hnext hP.2).mpr h.2 pre post hrest

theorem run_invariant (step : ∀ s a, I s → I (f s a)) (hs : I s) (as : List α) :
    I (run f s as) := by
  induction as generalizing s with
  | nil => exact hs
  | cons a as ih => exact ih (step s a hs)

/-- A reflexive and transitive relation kept by every step relates a state to
every later one. -/
theorem run_rel {R : σ → σ → Prop} (refl : ∀ s, R s s) (trans : ∀ s t u, R s t → R t u → R s u)
    (step : ∀ s a, R s (f s a)) (s : σ) (as : List α) : R s (run f s as) := by
  induction as generalizing s with
  | nil => exact refl s
  | cons a as ih => exact trans _ _ _ (step s a) (ih (f s a))

end Prequest.Lib
