import Mathlib.Data.Nat.Find
import Prequest.Maintenance.Recurrence

/-!
# Catching up with the present

* `landsOnNext_iff`: the catch-up lands on the next date exactly when it stays in the range.
-/

namespace Prequest.Maintenance

open Prequest.Lib.Calendar

/-- The advances from `start` number by number: the `k`th is a date not after now. -/
def DueAt (c : Cadence) (start now : Int) (k : Nat) : Prop :=
  ∃ t, c.advances k (some start) = .ok (some t) ∧ t ≤ now

/-- The result is the first of the advances after now, and an error exactly when that needs more
advances than the cap. -/
structure LandsOnNext (c : Cadence) (start now : Int) (cap : Nat) (result : Except String JsDate) :
    Prop where
  throws : (∃ e, result = .error e) ↔ ∀ k ≤ cap, DueAt c start now k
  lands : ∀ d, result = .ok d → ∃ k ≤ cap, ∃ t, d = some t ∧
    c.advances k (some start) = .ok (some t) ∧ now < t ∧ ∀ j < k, DueAt c start now j

/-- Every advance from a date that is not after now, within the cap, gives a valid date. -/
def StaysInRange (c : Cadence) (start now : Int) (cap : Nat) : Prop :=
  ∀ k < cap, (∀ j ≤ k, c.step^[j] start ≤ now) → c.fits (c.step^[k] start) = true

/-! ## The loop -/

section

variable {c : Cadence} {start now : Int} {cap : Nat}

theorem advanceLoop_due (hdue : start ≤ now) (left : Nat) :
    advanceLoop c.interval c.unit now left (some start) =
      match left with
      | 0 => .error "advanceToNextFuture: exceeded the iterations"
      | left + 1 => advanceLoop c.interval c.unit now left
          (if c.fits start then some (c.step start) else none) := by
  have hnotAfter : notAfter (some start) now = true := decide_eq_true hdue
  have hadvance : advanceRecurrence (some start) c.interval c.unit =
      .ok (if c.fits start then some (c.step start) else none) := advance_some c start
  conv_lhs => unfold advanceLoop
  rw [if_pos hnotAfter, hadvance]
  rfl

theorem advanceLoop_after (hafter : now < start) (left : Nat) :
    advanceLoop c.interval c.unit now left (some start) = .ok (some start) := by
  have hnotAfter : notAfter (some start) now = false :=
    decide_eq_false (Int.not_le.mpr hafter)
  unfold advanceLoop
  rw [hnotAfter]
  rfl

theorem advanceLoop_none (left : Nat) :
    advanceLoop c.interval c.unit now left none = .ok none := by
  unfold advanceLoop
  rfl

variable {k : Nat}

theorem advanceLoop_lands (hcap : k ≤ cap)
    (hdue : ∀ j < k, c.step^[j] start ≤ now ∧ c.fits (c.step^[j] start) = true)
    (hafter : now < c.step^[k] start) :
    advanceLoop c.interval c.unit now cap (some start) = .ok (some (c.step^[k] start)) := by
  induction k generalizing start cap with
  | zero => exact advanceLoop_after hafter cap
  | succ k ih =>
    have hfirst : start ≤ now := (hdue 0 (Nat.zero_lt_succ k)).1
    have hfits : c.fits start = true := (hdue 0 (Nat.zero_lt_succ k)).2
    obtain ⟨left, rfl⟩ : ∃ left, cap = left + 1 := ⟨cap - 1, by omega⟩
    rw [advanceLoop_due hfirst]
    dsimp only
    rw [if_pos hfits]
    exact ih (Nat.le_of_succ_le_succ hcap) (fun j hj => hdue (j + 1) (Nat.succ_lt_succ hj)) hafter

theorem advanceLoop_exceeds (hdue : ∀ j ≤ cap, c.step^[j] start ≤ now)
    (hfits : ∀ j < cap, c.fits (c.step^[j] start) = true) :
    ∃ e, advanceLoop c.interval c.unit now cap (some start) = .error e := by
  induction cap generalizing start with
  | zero => exact ⟨_, advanceLoop_due (hdue 0 (Nat.le_refl 0)) 0⟩
  | succ left ih =>
    have hstart : start ≤ now := hdue 0 (Nat.zero_le _)
    rw [advanceLoop_due hstart]
    dsimp only
    have hfirst : c.fits start = true := hfits 0 (Nat.zero_lt_succ left)
    rw [if_pos hfirst]
    exact ih (fun j hj => hdue (j + 1) (Nat.succ_le_succ hj))
      fun j hj => hfits (j + 1) (Nat.succ_lt_succ hj)

theorem advanceLoop_leaves (hcap : k < cap) (hdue : ∀ j ≤ k, c.step^[j] start ≤ now)
    (hfits : ∀ j < k, c.fits (c.step^[j] start) = true)
    (hleaves : c.fits (c.step^[k] start) = false) :
    advanceLoop c.interval c.unit now cap (some start) = .ok none := by
  induction k generalizing start cap with
  | zero =>
    obtain ⟨left, rfl⟩ : ∃ left, cap = left + 1 := ⟨cap - 1, by omega⟩
    have hstart : start ≤ now := hdue 0 (Nat.le_refl 0)
    have hfirst : c.fits start = false := hleaves
    rw [advanceLoop_due hstart]
    dsimp only
    rw [hfirst]
    exact advanceLoop_none left
  | succ k ih =>
    obtain ⟨left, rfl⟩ : ∃ left, cap = left + 1 := ⟨cap - 1, by omega⟩
    have hstart : start ≤ now := hdue 0 (Nat.zero_le _)
    have hfirst : c.fits start = true := hfits 0 (Nat.zero_lt_succ k)
    rw [advanceLoop_due hstart]
    dsimp only
    rw [if_pos hfirst]
    exact ih (Nat.lt_of_succ_lt_succ hcap) (fun j hj => hdue (j + 1) (Nat.succ_le_succ hj))
      (fun j hj => hfits (j + 1) (Nat.succ_lt_succ hj)) hleaves

/-! ## Where the loop ends -/

theorem dueAt_iff : DueAt c start now k ↔
    (∀ j < k, c.fits (c.step^[j] start) = true) ∧ c.step^[k] start ≤ now := by
  unfold DueAt
  rw [advances_some]
  by_cases hfits : ∀ j < k, c.fits (c.step^[j] start) = true
  · rw [if_pos hfits]
    constructor
    · rintro ⟨t, ht, hle⟩
      cases ht
      exact ⟨hfits, hle⟩
    · rintro ⟨_, hle⟩
      exact ⟨_, rfl, hle⟩
  · rw [if_neg hfits]
    constructor
    · rintro ⟨t, ht, _⟩
      cases ht
    · rintro ⟨h, _⟩
      exact absurd h hfits

theorem fits_of_staysInRange (h : StaysInRange c start now cap) (hk : k ≤ cap)
    (hdue : ∀ j < k, c.step^[j] start ≤ now) : ∀ j < k, c.fits (c.step^[j] start) = true :=
  fun j hj => h j (by omega) fun i hi => hdue i (by omega)

theorem landsOnNext_of_staysInRange (h : StaysInRange c start now cap) :
    LandsOnNext c start now cap (advanceLoop c.interval c.unit now cap (some start)) := by
  classical
  by_cases hafter : ∃ k, k ≤ cap ∧ now < c.step^[k] start
  · -- The first date after now ends the loop.
    have hfound := Nat.find_spec hafter
    have hdue : ∀ j < Nat.find hafter, c.step^[j] start ≤ now := by
      intro j hj
      by_contra hnot
      exact Nat.find_min hafter hj ⟨by omega, Int.not_le.mp hnot⟩
    generalize Nat.find hafter = k at hfound hdue
    have hfits := fits_of_staysInRange h hfound.1 hdue
    have hadvances : c.advances k (some start) = .ok (some (c.step^[k] start)) := by
      rw [advances_some, if_pos hfits]
    rw [advanceLoop_lands hfound.1 (fun j hj => ⟨hdue j hj, hfits j hj⟩) hfound.2]
    constructor
    · refine iff_of_false ?_ ?_
      · rintro ⟨e, he⟩
        cases he
      · intro hall
        have := (dueAt_iff.mp (hall k hfound.1)).2
        omega
    · intro d hd
      cases hd
      refine ⟨k, hfound.1, _, rfl, hadvances, hfound.2, ?_⟩
      intro j hj
      exact dueAt_iff.mpr ⟨fun i hi => hfits i (Nat.lt_trans hi hj), hdue j hj⟩
  · have hdue : ∀ j ≤ cap, c.step^[j] start ≤ now := by
      intro j hj
      by_contra hnot
      exact hafter ⟨j, hj, Int.not_le.mp hnot⟩
    have hfits := fits_of_staysInRange h (Nat.le_refl cap) fun j hj => hdue j (Nat.le_of_lt hj)
    obtain ⟨e, he⟩ := advanceLoop_exceeds hdue hfits
    rw [he]
    constructor
    · refine iff_of_true ⟨e, rfl⟩ ?_
      intro k hk
      exact dueAt_iff.mpr ⟨fun j hj => hfits j (by omega), hdue k hk⟩
    · intro d hd
      cases hd

theorem staysInRange_of_landsOnNext
    (h : LandsOnNext c start now cap (advanceLoop c.interval c.unit now cap (some start))) :
    StaysInRange c start now cap := by
  classical
  by_contra hout
  have hleaves : ∃ k, k < cap ∧ (∀ j ≤ k, c.step^[j] start ≤ now) ∧
      c.fits (c.step^[k] start) = false := by
    unfold StaysInRange at hout
    simpa only [not_forall, exists_prop, Bool.not_eq_true] using hout
  obtain ⟨hcap, hdue, hfound⟩ := Nat.find_spec hleaves
  have hfits : ∀ j < Nat.find hleaves, c.fits (c.step^[j] start) = true := by
    intro j hj
    by_contra hnot
    exact Nat.find_min hleaves hj
      ⟨by omega, fun i hi => hdue i (by omega), Bool.eq_false_iff.mpr hnot⟩
  obtain ⟨_, _, t, hnone, _⟩ := h.lands none (advanceLoop_leaves hcap hdue hfits hfound)
  cases hnone

theorem landsOnNext_advanceLoop :
    LandsOnNext c start now cap (advanceLoop c.interval c.unit now cap (some start)) ↔
      StaysInRange c start now cap :=
  ⟨staysInRange_of_landsOnNext, landsOnNext_of_staysInRange⟩

theorem computeInitialNextRunAt_eq {anchorDate : String}
    (h : parseAnchorDateToUtc anchorDate = .ok start) :
    computeInitialNextRunAt anchorDate c.interval c.unit now =
      advanceLoop c.interval c.unit now defaultAdvanceCap (some start) := by
  unfold computeInitialNextRunAt
  rw [h]
  show (if now < start then pure (some start) else _) = _
  split
  · rename_i hafter
    exact (advanceLoop_after hafter _).symm
  · rfl

end

/-- The catch-up lands on the first date of the cadence after now, or throws past the cap, exactly
when its advances stay in the range of a date. The dates of a cadence increase. -/
theorem landsOnNext_iff (c : Cadence) (start now : Int) (cap : Nat) :
    (LandsOnNext c start now cap
        (advanceToNextFuture (some start) c.interval c.unit now cap) ↔
      StaysInRange c start now cap) ∧
    (∀ anchorDate, parseAnchorDateToUtc anchorDate = .ok start →
      (LandsOnNext c start now defaultAdvanceCap
          (computeInitialNextRunAt anchorDate c.interval c.unit now) ↔
        StaysInRange c start now defaultAdvanceCap)) ∧
    ∀ j k, j < k → ∀ t u, c.advances j (some start) = .ok (some t) →
      c.advances k (some start) = .ok (some u) → t < u := by
  refine ⟨landsOnNext_advanceLoop, ?_, ?_⟩
  · intro anchorDate hparse
    rw [computeInitialNextRunAt_eq hparse]
    exact landsOnNext_advanceLoop
  · intro j k hjk t u ht hu
    rw [advances_some] at ht hu
    split at ht
    · split at hu
      · cases ht
        cases hu
        exact step_iterate_lt c start hjk
      · cases hu
    · cases ht

/-! ## A plan that leaves the range -/

def farApart : Cadence := ⟨200000000, .day, by decide⟩

/-- Nine o'clock on the first of January 2026. -/
def newYear2026 : Int := 1767258000000

/-- The first run of a plan that is anchored in the past is the invalid date. -/
theorem farApart_leaves_range :
    ¬LandsOnNext farApart newYear2026 1778670000000 defaultAdvanceCap
      (computeInitialNextRunAt "2026-01-01" farApart.interval farApart.unit 1778670000000) := by
  intro h
  have hparse : parseAnchorDateToUtc "2026-01-01" = .ok newYear2026 := by
    have hdate : splitDate "2026-01-01" = some (2026, 1, 1) := by decide +kernel
    unfold parseAnchorDateToUtc
    rw [hdate]
    rfl
  have hresult : computeInitialNextRunAt "2026-01-01" farApart.interval farApart.unit
      1778670000000 = .ok none := by
    rw [computeInitialNextRunAt_eq hparse]
    refine advanceLoop_leaves (show 0 < defaultAdvanceCap by decide) ?_ ?_ ?_
    · intro j hj
      obtain rfl := Nat.le_zero.mp hj
      decide
    · intro j hj
      cases hj
    · decide +kernel
  obtain ⟨_, _, _, hnone, _⟩ := h.lands none hresult
  cases hnone

end Prequest.Maintenance
