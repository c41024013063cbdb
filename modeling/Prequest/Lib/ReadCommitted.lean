import Mathlib.Logic.Function.Basic
import Prequest.Lib.Run

/-!
# Transactions under READ COMMITTED

A transaction is a sequence of statements. Each statement sees the rows that are
committed when it starts, together with the transaction's own writes; its writes
become visible to others when the transaction commits. Row locks and advisory
locks are held until the transaction ends, and a statement that needs a lock
held by another transaction waits.

`Program` is the text of one transaction, `World` the committed state, the lock
table and one session for every transaction, and `step` lets one session execute
its next statement. A schedule is a list of session names; `run` folds `step`
over it. Naming a session that waits, or that has ended, does nothing.

* `step_session_ne`: a statement changes only its own session.
* `ended_stays`, `committed_stays`: a session that has ended stays as it is.
* `run_replicate`: a transaction that nobody interrupts is its program, run alone.
* `step_of_running`: a statement without a lock is executed when it is named.
-/

namespace Prequest.Lib.ReadCommitted

variable {δ κ ℓ ι : Type*}

/-- What a statement does: go on, commit, or abort. `write` is its effect on the rows. -/
inductive Effect (δ ℓ : Type*) where
  | next (pc : ℓ) (write : δ → δ)
  | commit (pc : ℓ) (write : δ → δ)
  | abort

/-- The text of a transaction over rows `δ`, locks `κ` and control points `ℓ`. -/
structure Program (δ κ ℓ : Type*) where
  start : ℓ
  /-- The lock the statement at a control point takes before it runs. -/
  lock : ℓ → Option κ
  /-- The statement at a control point, on the rows it sees. -/
  exec : ℓ → δ → Effect δ ℓ

/-- How far a transaction has come. -/
inductive Phase where
  | running
  | committed
  | aborted
  deriving DecidableEq, Repr

/-- A transaction in progress, with its uncommitted writes. -/
structure Session (δ ℓ : Type*) where
  phase : Phase
  pc : ℓ
  writes : δ → δ

/-- The committed rows, the lock table, and the sessions. -/
structure World (δ κ ℓ ι : Type*) where
  rows : δ
  locks : κ → Option ι
  session : ι → Session δ ℓ

/-- All transactions at their start, and nothing locked. -/
def initial (prog : ι → Program δ κ ℓ) (rows : δ) : World δ κ ℓ ι where
  rows := rows
  locks := fun _ => none
  session := fun i => { phase := .running, pc := (prog i).start, writes := id }

/-- The rows that a statement of session `i` sees. -/
def World.view (w : World δ κ ℓ ι) (i : ι) : δ := (w.session i).writes w.rows

variable [DecidableEq κ] [DecidableEq ι]

/-- Session `i` waits for a lock that another session holds. -/
def World.waits (w : World δ κ ℓ ι) (i : ι) (lock : Option κ) : Bool :=
  match lock.bind w.locks with
  | none => false
  | some holder => decide (holder ≠ i)

/-- The lock table once session `i` has the lock it asked for. -/
def World.acquire (w : World δ κ ℓ ι) (i : ι) (lock : Option κ) : κ → Option ι := fun k =>
  if lock = some k then some i else w.locks k

/-- The lock table once session `i` has ended. -/
def World.release (w : World δ κ ℓ ι) (i : ι) : κ → Option ι := fun k =>
  if w.locks k = some i then none else w.locks k

/-- Session `i` becomes `s`. -/
def World.setSession (w : World δ κ ℓ ι) (i : ι) (s : Session δ ℓ) : ι → Session δ ℓ :=
  Function.update w.session i s

/-- Session `i` executes its next statement, unless it has ended or has to wait. -/
def step (prog : ι → Program δ κ ℓ) (w : World δ κ ℓ ι) (i : ι) : World δ κ ℓ ι :=
  let s := w.session i
  if s.phase ≠ .running ∨ w.waits i ((prog i).lock s.pc) = true then w
  else match (prog i).exec s.pc (w.view i) with
    | .next pc write =>
        { rows := w.rows
          locks := w.acquire i ((prog i).lock s.pc)
          session := w.setSession i
            { phase := .running, pc := pc, writes := fun db => write (s.writes db) } }
    | .commit pc write =>
        { rows := write (s.writes w.rows)
          locks := w.release i
          session := w.setSession i { phase := .committed, pc := pc, writes := id } }
    | .abort =>
        { rows := w.rows
          locks := w.release i
          session := w.setSession i { phase := .aborted, pc := s.pc, writes := id } }

variable {prog : ι → Program δ κ ℓ} {w : World δ κ ℓ ι} {i j : ι} {k : κ}

/-! ## One scheduled statement -/

/-- What naming session `i` in a schedule can do. -/
inductive StepCases (prog : ι → Program δ κ ℓ) (w : World δ κ ℓ ι) (i : ι) :
    World δ κ ℓ ι → Prop where
  /-- The session has ended, or waits. -/
  | idle {w' : World δ κ ℓ ι} (hsame : w' = w) : StepCases prog w i w'
  | next {w' : World δ κ ℓ ι} {pc : ℓ} {write : δ → δ}
      (hrunning : (w.session i).phase = .running)
      (hexec : (prog i).exec (w.session i).pc (w.view i) = .next pc write)
      (hrows : w'.rows = w.rows)
      (hsession : w'.session = w.setSession i
        { phase := .running, pc := pc, writes := fun db => write ((w.session i).writes db) }) :
      StepCases prog w i w'
  | commit {w' : World δ κ ℓ ι} {pc : ℓ} {write : δ → δ}
      (hrunning : (w.session i).phase = .running)
      (hexec : (prog i).exec (w.session i).pc (w.view i) = .commit pc write)
      (hrows : w'.rows = write (w.view i))
      (hsession : w'.session = w.setSession i { phase := .committed, pc := pc, writes := id }) :
      StepCases prog w i w'
  | abort {w' : World δ κ ℓ ι} {pc : ℓ} (hrunning : (w.session i).phase = .running)
      (hrows : w'.rows = w.rows)
      (hsession : w'.session = w.setSession i { phase := .aborted, pc := pc, writes := id }) :
      StepCases prog w i w'

theorem step_cases (prog : ι → Program δ κ ℓ) (w : World δ κ ℓ ι) (i : ι) :
    StepCases prog w i (step prog w i) := by
  unfold step
  by_cases hwait : (w.session i).phase ≠ .running ∨
      w.waits i ((prog i).lock (w.session i).pc) = true
  · simp only [if_pos hwait]
    exact .idle rfl
  · have hrunning : (w.session i).phase = .running := by
      by_contra hne
      exact hwait (.inl hne)
    simp only [if_neg hwait]
    cases hexec : (prog i).exec (w.session i).pc (w.view i) with
    | next pc write => exact .next hrunning hexec rfl rfl
    | commit pc write => exact .commit hrunning hexec rfl rfl
    | abort => exact .abort hrunning rfl rfl

/-- A statement that is executed did not have to wait, and it acquires its lock or ends its
session. -/
theorem step_locks (prog : ι → Program δ κ ℓ) (w : World δ κ ℓ ι) (i : ι) :
    step prog w i = w ∨
      w.waits i ((prog i).lock (w.session i).pc) = false ∧
        (((step prog w i).session i).phase = .running →
          (step prog w i).locks = w.acquire i ((prog i).lock (w.session i).pc)) ∧
        (((step prog w i).session i).phase ≠ .running → (step prog w i).locks = w.release i) := by
  unfold step
  by_cases hwait : (w.session i).phase ≠ .running ∨
      w.waits i ((prog i).lock (w.session i).pc) = true
  · left
    simp only [if_pos hwait]
  · right
    obtain ⟨_, hfree⟩ := not_or.mp hwait
    refine ⟨by simpa using hfree, ?_⟩
    simp only [if_neg hwait]
    cases (prog i).exec (w.session i).pc (w.view i) with
    | next pc write => simp [World.setSession]
    | commit pc write => simp [World.setSession]
    | abort => simp [World.setSession]

omit [DecidableEq κ] in
theorem not_waits_iff (hheld : w.locks k = some j) : w.waits i (some k) = false ↔ j = i := by
  simp [World.waits, hheld]

omit [DecidableEq κ] in
theorem free_of_not_waits (hfree : w.waits i (some k) = false) :
    w.locks k = some i ∨ w.locks k = none := by
  cases hheld : w.locks k with
  | none => exact .inr rfl
  | some j =>
    left
    rw [(not_waits_iff hheld).mp hfree]

section Execute

variable {w : World δ κ ℓ ι} {i : ι}

theorem step_of_waits (prog : ι → Program δ κ ℓ)
    (hwait : w.waits i ((prog i).lock (w.session i).pc) = true) : step prog w i = w := by
  unfold step
  simp only [if_pos (Or.inr hwait)]

theorem step_next (prog : ι → Program δ κ ℓ) {pc : ℓ} {write : δ → δ}
    (hrunning : (w.session i).phase = .running)
    (hfree : w.waits i ((prog i).lock (w.session i).pc) = false)
    (hexec : (prog i).exec (w.session i).pc (w.view i) = .next pc write) :
    step prog w i =
      { rows := w.rows
        locks := w.acquire i ((prog i).lock (w.session i).pc)
        session := w.setSession i
          { phase := .running, pc := pc, writes := fun db => write ((w.session i).writes db) } } := by
  unfold step
  rw [if_neg (by simp [hrunning, hfree]), hexec]

theorem step_commit (prog : ι → Program δ κ ℓ) {pc : ℓ} {write : δ → δ}
    (hrunning : (w.session i).phase = .running)
    (hfree : w.waits i ((prog i).lock (w.session i).pc) = false)
    (hexec : (prog i).exec (w.session i).pc (w.view i) = .commit pc write) :
    step prog w i =
      { rows := write (w.view i)
        locks := w.release i
        session := w.setSession i { phase := .committed, pc := pc, writes := id } } := by
  unfold step
  rw [if_neg (by simp [hrunning, hfree]), hexec]
  rfl

theorem step_abort (prog : ι → Program δ κ ℓ) (hrunning : (w.session i).phase = .running)
    (hfree : w.waits i ((prog i).lock (w.session i).pc) = false)
    (hexec : (prog i).exec (w.session i).pc (w.view i) = .abort) :
    step prog w i =
      { rows := w.rows
        locks := w.release i
        session := w.setSession i
          { phase := .aborted, pc := (w.session i).pc, writes := id } } := by
  unfold step
  rw [if_neg (by simp [hrunning, hfree]), hexec]

end Execute

theorem lock_kept (prog : ι → Program δ κ ℓ) (hheld : w.locks k = some j)
    (hrunning : ((step prog w i).session j).phase = .running) :
    (step prog w i).locks k = some j := by
  rcases step_locks prog w i with hsame | ⟨hfree, hacquire, hrelease⟩
  · rw [hsame]
    exact hheld
  · by_cases hgo : ((step prog w i).session i).phase = .running
    · rw [hacquire hgo]
      unfold World.acquire
      split_ifs with hlock
      · rw [hlock] at hfree
        rw [(not_waits_iff hheld).mp hfree]
      · exact hheld
    · rw [hrelease hgo]
      unfold World.release
      split_ifs with hown
      · rw [hheld] at hown
        obtain rfl := Option.some.inj hown
        exact absurd hrunning hgo
      · exact hheld

theorem step_of_running (prog : ι → Program δ κ ℓ) (hrunning : (w.session i).phase = .running)
    (hlock : (prog i).lock (w.session i).pc = none) :
    (∀ pc write, (prog i).exec (w.session i).pc (w.view i) = .next pc write →
      (step prog w i).session i =
        { phase := .running, pc := pc, writes := fun db => write ((w.session i).writes db) }) ∧
    ∀ pc write, (prog i).exec (w.session i).pc (w.view i) = .commit pc write →
      (step prog w i).session i = { phase := .committed, pc := pc, writes := id } := by
  have hgo : ¬((w.session i).phase ≠ .running ∨
      w.waits i ((prog i).lock (w.session i).pc) = true) := by
    simp [hrunning, hlock, World.waits]
  constructor
  · intro pc write hexec
    unfold step
    simp only [if_neg hgo, hexec, World.setSession, Function.update_self]
  · intro pc write hexec
    unfold step
    simp only [if_neg hgo, hexec, World.setSession, Function.update_self]

theorem step_session_ne (w : World δ κ ℓ ι) (h : j ≠ i) :
    (step prog w i).session j = w.session j := by
  cases step_cases prog w i with
  | idle hsame => rw [hsame]
  | next _ _ _ hsession => rw [hsession]; exact Function.update_of_ne h _ _
  | commit _ _ _ hsession => rw [hsession]; exact Function.update_of_ne h _ _
  | abort _ _ hsession => rw [hsession]; exact Function.update_of_ne h _ _

theorem ended_step (prog : ι → Program δ κ ℓ) (w : World δ κ ℓ ι) (i : ι)
    (h : (w.session j).phase ≠ .running) : (step prog w i).session j = w.session j := by
  by_cases hji : j = i
  · subst hji
    unfold step
    simp only [if_pos (Or.inl h)]
  · exact step_session_ne w hji

theorem ended_stays (h : (w.session j).phase ≠ .running) (sched : List ι) :
    (run (step prog) w sched).session j = w.session j := by
  induction sched generalizing w with
  | nil => rfl
  | cons i sched ih =>
    have hstep := ended_step prog w i h
    rw [run_cons, ih (by rw [hstep]; exact h), hstep]

theorem committed_stays (h : (w.session j).phase = .committed) (sched : List ι) :
    ((run (step prog) w sched).session j).phase = .committed := by
  rw [ended_stays (by rw [h]; decide) sched]
  exact h

/-! ## A transaction that nobody interrupts -/

/-- The rows after at most `n` statements of a program on its own. -/
def alone (p : Program δ κ ℓ) (rows : δ) : ℕ → ℓ → (δ → δ) → δ
  | 0, _, _ => rows
  | n + 1, pc, writes =>
      match p.exec pc (writes rows) with
      | .next pc' write => alone p rows n pc' fun db => write (writes db)
      | .commit _ write => write (writes rows)
      | .abort => rows

section Alone

variable {p : Program δ κ ℓ} {rows : δ} {n : ℕ} {pc : ℓ} {writes : δ → δ}

omit [DecidableEq κ] [DecidableEq ι] in
theorem alone_next (pc' : ℓ) (write : δ → δ)
    (h : p.exec pc (writes rows) = .next pc' write) :
    alone p rows (n + 1) pc writes = alone p rows n pc' fun db => write (writes db) := by
  simp only [alone, h]

omit [DecidableEq κ] [DecidableEq ι] in
theorem alone_commit (pc' : ℓ) (write : δ → δ)
    (h : p.exec pc (writes rows) = .commit pc' write) :
    alone p rows (n + 1) pc writes = write (writes rows) := by
  simp only [alone, h]

omit [DecidableEq κ] [DecidableEq ι] in
theorem alone_abort (h : p.exec pc (writes rows) = .abort) :
    alone p rows (n + 1) pc writes = rows := by
  simp only [alone, h]

end Alone

/-- Nobody but session `i` holds a lock. -/
def World.FreeFor (w : World δ κ ℓ ι) (i : ι) : Prop := ∀ k j, w.locks k = some j → j = i

omit [DecidableEq κ] in
theorem World.FreeFor.not_waits (h : w.FreeFor i) (lock : Option κ) : w.waits i lock = false := by
  cases lock with
  | none => rfl
  | some k =>
    unfold World.waits
    cases hlock : w.locks k with
    | none => simp [hlock]
    | some holder => simp [hlock, h k holder hlock]

theorem run_replicate (hrunning : (w.session i).phase = .running) (hfree : w.FreeFor i)
    (n : ℕ) : (run (step prog) w (List.replicate n i)).rows =
      alone (prog i) w.rows n (w.session i).pc (w.session i).writes := by
  induction n generalizing w with
  | zero => rfl
  | succ n ih =>
    have hgo : ¬((w.session i).phase ≠ .running ∨
        w.waits i ((prog i).lock (w.session i).pc) = true) := by
      simp [hrunning, hfree.not_waits]
    -- Once the session has ended, the rest of the schedule does nothing.
    have hended : ∀ w' : World δ κ ℓ ι, (w'.session i).phase ≠ .running →
        (run (step prog) w' (List.replicate n i)).rows = w'.rows := by
      intro w' hw'
      have hidle : ∀ m, run (step prog) w' (List.replicate m i) = w' := by
        intro m
        induction m with
        | zero => rfl
        | succ m ihm =>
          have hstep : step prog w' i = w' := by
            unfold step
            simp only [if_pos (Or.inl hw')]
          rw [List.replicate_succ, run_cons, hstep, ihm]
      rw [hidle n]
    rw [List.replicate_succ, run_cons]
    cases hexec : (prog i).exec (w.session i).pc (w.view i) with
    | next pc write =>
      have hstep : step prog w i =
          { rows := w.rows
            locks := w.acquire i ((prog i).lock (w.session i).pc)
            session := w.setSession i
              { phase := .running, pc := pc
                writes := fun db => write ((w.session i).writes db) } } := by
        unfold step
        simp only [if_neg hgo, hexec]
      have hfree' : (step prog w i).FreeFor i := by
        rw [hstep]
        intro k j hk
        simp only [World.acquire] at hk
        split at hk
        · exact (Option.some.inj hk).symm
        · exact hfree k j hk
      have hsession : (step prog w i).session i =
          { phase := .running, pc := pc
            writes := fun db => write ((w.session i).writes db) } := by
        rw [hstep]
        exact Function.update_self ..
      rw [alone_next _ _ hexec, ih (by rw [hsession]) hfree', hsession, hstep]
    | commit pc write =>
      have hstep : step prog w i =
          { rows := write ((w.session i).writes w.rows)
            locks := w.release i
            session := w.setSession i { phase := .committed, pc := pc, writes := id } } := by
        unfold step
        simp only [if_neg hgo, hexec]
      rw [alone_commit _ _ hexec, hended _ (by rw [hstep]; simp [World.setSession]), hstep]
    | abort =>
      have hstep : step prog w i =
          { rows := w.rows
            locks := w.release i
            session := w.setSession i
              { phase := .aborted, pc := (w.session i).pc, writes := id } } := by
        unfold step
        simp only [if_neg hgo, hexec]
      rw [alone_abort hexec, hended _ (by rw [hstep]; simp [World.setSession]), hstep]

end Prequest.Lib.ReadCommitted
