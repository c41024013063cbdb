import Prequest.Lib.Run

/-!
# Commands that record their results

A command carries a key and a payload. Its success is settled: the key is bound to the payload and
to the result, and stays so whatever else happens. A settled key answers every later command with
the same key and payload, and the state does not change.
-/

namespace Prequest.Command

open Prequest.Lib

/-- Commands `C` on states `σ`. A command without a payload is malformed. -/
structure Recording (σ C K P R E : Type) where
  exec : σ → C → Except E (σ × R)
  keyOf : C → K
  payloadOf : C → Option P

variable {σ C K P R E : Type}

/-- `settled s k p r`: in the state `s` the key `k` is bound to the payload `p` and the result `r`. -/
structure Settles (sys : Recording σ C K P R E) (settled : σ → K → P → R → Prop) : Prop where
  settles : ∀ {s s' c r}, sys.exec s c = .ok (s', r) →
    ∃ p, sys.payloadOf c = some p ∧ settled s' (sys.keyOf c) p r
  keeps : ∀ {s s' c r k p r₀}, settled s k p r₀ → sys.exec s c = .ok (s', r) → settled s' k p r₀
  answers : ∀ {s c p r}, settled s (sys.keyOf c) p r → sys.payloadOf c = some p →
    sys.exec s c = .ok (s, r)

/-- A command that succeeded is answered from its record after any steps that keep what is
settled. -/
theorem Settles.replay {sys : Recording σ C K P R E} {settled : σ → K → P → R → Prop}
    (h : Settles sys settled) {α : Type} {step : σ → α → σ}
    (hstep : ∀ s a k p r, settled s k p r → settled (step s a) k p r) {s s' : σ} {c c' : C} {r : R}
    (hexec : sys.exec s c = .ok (s', r)) (inputs : List α) (hkey : sys.keyOf c' = sys.keyOf c)
    (hpayload : sys.payloadOf c' = sys.payloadOf c) :
    sys.exec (run step s' inputs) c' = .ok (run step s' inputs, r) := by
  obtain ⟨p, hp, hsettled⟩ := h.settles hexec
  have hrun : settled (run step s' inputs) (sys.keyOf c) p r :=
    run_invariant (fun s a hs => hstep s a _ _ _ hs) hsettled inputs
  rw [← hkey] at hrun
  exact h.answers hrun (hpayload.trans hp)

end Prequest.Command
