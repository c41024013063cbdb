import Mathlib.Logic.Function.Basic

/-!
# Inverse partial functions

Two tables that point at each other are two partial functions. They are inverse
when each of them gives back what the other one was given, and then both are
injective.

* `Inverse.link_iff`: a new pair keeps them inverse exactly when both of its ends are free.
* `Inverse.unlink`: taking a pair away keeps them inverse.
-/

namespace Prequest.Lib

variable {α β : Type*} {f : α → Option β} {g : β → Option α} {b : β}

def Inverse (f : α → Option β) (g : β → Option α) : Prop := ∀ a b, f a = some b ↔ g b = some a

theorem Inverse.symm (h : Inverse f g) : Inverse g f := fun b a => (h a b).symm

theorem Inverse.injective (h : Inverse f g) {a a' : α} (ha : f a = some b) (ha' : f a' = some b) :
    a = a' :=
  Option.some.inj (((h a b).mp ha).symm.trans ((h a' b).mp ha'))

variable [DecidableEq α] [DecidableEq β]

theorem Inverse.link_iff (h : Inverse f g) {a : α} (ha : f a = none) :
    Inverse (Function.update f a (some b)) (Function.update g b (some a)) ↔ g b = none := by
  constructor
  · intro hlinked
    by_contra hheld
    obtain ⟨a', ha'⟩ := Option.ne_none_iff_exists'.mp hheld
    have hne : a' ≠ a := by
      rintro rfl
      rw [(h a' b).mpr ha'] at ha
      cases ha
    have hstill : Function.update f a (some b) a' = some b := by
      rw [Function.update_of_ne hne]
      exact (h a' b).mpr ha'
    have hnew := (hlinked a' b).mp hstill
    rw [Function.update_self] at hnew
    exact hne (Option.some.inj hnew).symm
  · intro hb a' b'
    by_cases haa : a' = a
    · subst haa
      by_cases hbb : b' = b
      · subst hbb
        simp
      · rw [Function.update_self, Function.update_of_ne hbb]
        refine iff_of_false (fun heq => hbb (Option.some.inj heq).symm) fun heq => ?_
        rw [(h a' b').mpr heq] at ha
        cases ha
    · rw [Function.update_of_ne haa]
      by_cases hbb : b' = b
      · subst hbb
        rw [Function.update_self]
        refine iff_of_false (fun heq => ?_) fun heq => haa (Option.some.inj heq).symm
        rw [(h a' b').mp heq] at hb
        cases hb
      · rw [Function.update_of_ne hbb]
        exact h a' b'

theorem Inverse.unlink (h : Inverse f g) {a : α} (hab : f a = some b) :
    Inverse (Function.update f a none) (Function.update g b none) := by
  intro a' b'
  by_cases haa : a' = a
  · subst haa
    rw [Function.update_self]
    refine iff_of_false (by simp) fun heq => ?_
    by_cases hbb : b' = b
    · subst hbb
      simp at heq
    · rw [Function.update_of_ne hbb, ← h a' b', hab] at heq
      exact hbb (Option.some.inj heq).symm
  · rw [Function.update_of_ne haa]
    by_cases hbb : b' = b
    · subst hbb
      rw [Function.update_self]
      refine iff_of_false (fun heq => haa (h.injective heq hab)) (by simp)
    · rw [Function.update_of_ne hbb]
      exact h a' b'

end Prequest.Lib
