import Prequest.Lib.ReadCommitted
import Mathlib.Algebra.Order.BigOperators.Group.Finset
import Mathlib.Data.Fintype.Card

/-!
# Locks that are taken in order

Transactions that take their locks in one order never wait for each other in a
circle. Each lock has a rank, and each control point a level that is above the
locks taken before it; a statement asks for a lock at its level or above.

* `HeldBelow`, `HeldBelow.run`: what is locked, in every state of a run.
* `exists_free`: while somebody runs, somebody can go on.
* `exists_ending`: every run can be brought to its end, within a bound.
-/

namespace Prequest.Lib.ReadCommitted

variable {δ κ ℓ ι : Type*}

/-- An order of the locks that the programs keep to, and for each control point a bound on the
statements that are left. -/
structure LockOrder (prog : ι → Program δ κ ℓ) where
  rank : κ → ℕ
  bound : ℕ
  level : ℓ → ℕ
  left : ℓ → ℕ
  rank_lt : ∀ k, rank k < bound
  asks : ∀ {i pc k}, (prog i).lock pc = some k → level pc ≤ rank k
  takes : ∀ {i pc k rows pc' write}, (prog i).lock pc = some k →
    (prog i).exec pc rows = .next pc' write → rank k < level pc'
  climbs : ∀ {i pc rows pc' write}, (prog i).exec pc rows = .next pc' write → level pc ≤ level pc'
  ends : ∀ {i pc rows pc' write}, (prog i).exec pc rows = .next pc' write → left pc' < left pc

variable {prog : ι → Program δ κ ℓ} (o : LockOrder prog)

/-- Every lock is held by a session that runs, and is below the level of the session. -/
def HeldBelow (w : World δ κ ℓ ι) : Prop :=
  ∀ k j, w.locks k = some j →
    (w.session j).phase = .running ∧ o.rank k < o.level (w.session j).pc

theorem heldBelow_initial (rows : δ) : HeldBelow o (initial prog rows) := nofun

variable {o} {w : World δ κ ℓ ι} {i : ι} [DecidableEq κ] [DecidableEq ι]

theorem HeldBelow.next (h : HeldBelow o w) (hrunning : (w.session i).phase = .running)
    {rows : δ} {pc : ℓ} {write writes : δ → δ} {w' : World δ κ ℓ ι}
    (hexec : (prog i).exec (w.session i).pc rows = .next pc write)
    (hlocks : w'.locks = w.acquire i ((prog i).lock (w.session i).pc))
    (hsession : w'.session = w.setSession i { phase := .running, pc := pc, writes := writes }) :
    HeldBelow o w' := by
  intro k j hheld
  rw [hlocks] at hheld
  rw [hsession]
  unfold World.acquire at hheld
  unfold World.setSession
  split at hheld
  · rename_i hasked
    obtain rfl := Option.some.inj hheld
    rw [Function.update_self]
    exact ⟨rfl, o.takes hasked hexec⟩
  · obtain ⟨hrun, hbelow⟩ := h k j hheld
    by_cases hj : j = i
    · subst hj
      rw [Function.update_self]
      exact ⟨rfl, Nat.lt_of_lt_of_le hbelow (o.climbs hexec)⟩
    · rw [Function.update_of_ne hj]
      exact ⟨hrun, hbelow⟩

omit [DecidableEq κ] in
theorem HeldBelow.ended (h : HeldBelow o w) {s : Session δ ℓ} {w' : World δ κ ℓ ι}
    (hlocks : w'.locks = w.release i) (hsession : w'.session = w.setSession i s) :
    HeldBelow o w' := by
  intro k j hheld
  rw [hlocks] at hheld
  rw [hsession]
  unfold World.release at hheld
  split at hheld
  · cases hheld
  · rename_i hother
    have hj : j ≠ i := by
      rintro rfl
      exact hother hheld
    unfold World.setSession
    rw [Function.update_of_ne hj]
    exact h k j hheld

theorem step_of_ended (prog : ι → Program δ κ ℓ) (h : (w.session i).phase ≠ .running) :
    step prog w i = w := by
  unfold step
  simp only [if_pos (Or.inl h)]

theorem HeldBelow.step (h : HeldBelow o w) (i : ι) : HeldBelow o (step prog w i) := by
  by_cases hrunning : (w.session i).phase = .running
  swap
  · rw [step_of_ended prog hrunning]
    exact h
  cases hwait : w.waits i ((prog i).lock (w.session i).pc) with
  | true =>
    rw [step_of_waits prog hwait]
    exact h
  | false =>
    cases hexec : (prog i).exec (w.session i).pc (w.view i) with
    | next pc write =>
      rw [step_next prog hrunning hwait hexec]
      exact h.next hrunning hexec rfl rfl
    | commit pc write =>
      rw [step_commit prog hrunning hwait hexec]
      exact h.ended rfl rfl
    | abort =>
      rw [step_abort prog hrunning hwait hexec]
      exact h.ended rfl rfl

theorem HeldBelow.run (h : HeldBelow o w) (sched : List ι) :
    HeldBelow o (Lib.run (ReadCommitted.step prog) w sched) :=
  run_invariant (fun _ i hw => hw.step i) h sched

omit [DecidableEq κ] in
/-- While somebody runs, somebody runs who does not wait: whoever is waited for is at a higher
level. -/
theorem HeldBelow.exists_free (h : HeldBelow o w) (hrunning : (w.session i).phase = .running) :
    ∃ j, (w.session j).phase = .running ∧
      w.waits j ((prog j).lock (w.session j).pc) = false := by
  induction hd : o.bound - o.level (w.session i).pc using Nat.strong_induction_on generalizing i with
  | _ d ih =>
    cases hwait : w.waits i ((prog i).lock (w.session i).pc) with
    | false => exact ⟨i, hrunning, hwait⟩
    | true =>
      cases hlock : (prog i).lock (w.session i).pc with
      | none =>
        rw [hlock] at hwait
        cases hwait
      | some k =>
        rw [hlock] at hwait
        cases hheld : w.locks k with
        | none => simp [World.waits, hheld] at hwait
        | some j =>
          obtain ⟨hrun, hbelow⟩ := h k j hheld
          have hasks := o.asks hlock
          have hbound := o.rank_lt k
          exact ih _ (by omega) hrun rfl

/-! ## The end of a run -/

section

variable [Fintype ι] (o)

/-- The statements that a session can still execute. -/
def sessionLeft (s : Session δ ℓ) : ℕ := if s.phase = .running then o.left s.pc + 1 else 0

def worldLeft (w : World δ κ ℓ ι) : ℕ := ∑ i, sessionLeft o (w.session i)

variable {o}

theorem worldLeft_step (hrunning : (w.session i).phase = .running)
    (hfree : w.waits i ((prog i).lock (w.session i).pc) = false) :
    worldLeft o (step prog w i) < worldLeft o w := by
  have hless : sessionLeft o ((step prog w i).session i) < sessionLeft o (w.session i) := by
    unfold sessionLeft
    rw [if_pos hrunning]
    cases hexec : (prog i).exec (w.session i).pc (w.view i) with
    | next pc write =>
      rw [step_next prog hrunning hfree hexec]
      simpa [World.setSession] using o.ends hexec
    | commit pc write =>
      rw [step_commit prog hrunning hfree hexec]
      simp [World.setSession]
    | abort =>
      rw [step_abort prog hrunning hfree hexec]
      simp [World.setSession]
  refine Finset.sum_lt_sum (fun j _ => ?_) ⟨i, Finset.mem_univ i, hless⟩
  by_cases hj : j = i
  · rw [hj]
    exact Nat.le_of_lt hless
  · rw [step_session_ne w hj]

/-- The sessions can go on, one statement at a time, until all of them have ended. -/
theorem HeldBelow.exists_ending (h : HeldBelow o w) :
    ∃ more : List ι, more.length ≤ worldLeft o w ∧
      ∀ i, ((Lib.run (ReadCommitted.step prog) w more).session i).phase ≠ .running := by
  induction hd : worldLeft o w using Nat.strong_induction_on generalizing w with
  | _ d ih =>
    by_cases hsome : ∃ i, (w.session i).phase = .running
    · obtain ⟨i, hi⟩ := hsome
      obtain ⟨j, hrunning, hfree⟩ := h.exists_free hi
      have hless := worldLeft_step (o := o) hrunning hfree
      obtain ⟨more, hlength, hended⟩ := ih _ (hd ▸ hless) (h.step j) rfl
      refine ⟨j :: more, ?_, hended⟩
      rw [List.length_cons]
      omega
    · exact ⟨[], Nat.zero_le _, fun i hi => hsome ⟨i, hi⟩⟩

end

end Prequest.Lib.ReadCommitted
