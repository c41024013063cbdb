import Prequest.DailyList.Sender
import Prequest.DailyList.FeedSteps

/-!
# The leases of the daily lists

* `LeaseInv.finisher`: only the holder of the current lease finishes a list.
-/

namespace Prequest.DailyList

open Prequest.Lib

variable {ι : Type} [DecidableEq ι] {cfg : SendConfig} {s : SendState ι} {event : SendEvent ι}

/-! ## What a step does to a list -/

inductive RowStep (s : SendState ι) : SendEvent ι → VendorDailyList → VendorDailyList → Prop
  | same {event : SendEvent ι} {l l' : VendorDailyList} (hstatus : l'.emailStatus = l.emailStatus)
      (hsent : l'.sentAt = l.sentAt) (hacquired : l'.sendingAcquiredAt = l.sendingAcquiredAt) :
      RowStep s event l l'
  | acquired {l : VendorDailyList} (i : ι) (list : VendorDailyList) (force : Bool)
      (hworker : s.worker i = .uploaded list force) (hid : list.id = l.id)
      (hfree : acquirable force l.emailStatus = true) :
      RowStep s (.acquire i) l ((setSending s.clock).apply l)
  | marked {l : VendorDailyList} (i : ι) (lease : Lease) (messageId : String)
      (hworker : s.worker i = .mailed lease (.ok messageId))
      (hfence : fencedBy lease.listId lease.token l = true) :
      RowStep s (.finish i) l ((markSent s.clock messageId).apply l)
  | failed {l : VendorDailyList} (i : ι) (lease : Lease) (error : String)
      (hworker : s.worker i = .mailed lease (.error error))
      (hfence : fencedBy lease.listId lease.token l = true) :
      RowStep s (.finish i) l ((setFailed error).apply l)
  | reclaimed {l : VendorDailyList} (error : String) (hstuck : isStuck s.clock l = true) :
      RowStep s .reclaim l ((setFailed error).apply l)

structure LaterRow (s : SendState ι) (event : SendEvent ι) (l l' : VendorDailyList) : Prop where
  id : l'.id = l.id
  bucket : l'.bucket = l.bucket
  payload : l'.payload = l.payload
  step : RowStep s event l l'

omit [DecidableEq ι] in
theorem LaterRow.refl (event : SendEvent ι) (l : VendorDailyList) : LaterRow s event l l :=
  ⟨rfl, rfl, rfl, .same rfl rfl rfl⟩

omit [DecidableEq ι] in
theorem later_of_update {p : VendorDailyList → Bool} {f : Table.Assignment VendorDailyList}
    (h : ∀ l ∈ s.lists.rows, p l = true → LaterRow s event l (f.apply l)) :
    ∀ l ∈ s.lists.rows, ∃ l' ∈ (s.lists.update p f).rows, LaterRow s event l l' := by
  intro l hl
  by_cases hp : p l = true
  · exact ⟨_, Table.mem_update_iff.mpr ⟨l, hl, .inl ⟨hp, rfl⟩⟩, h l hl hp⟩
  · exact ⟨_, Table.mem_update_iff.mpr ⟨l, hl, .inr ⟨hp, rfl⟩⟩, LaterRow.refl event l⟩

section

variable (cfg : SendConfig)

@[simp] theorem leave_lists (s : SendState ι) (i : ι) (w : Worker) :
    (s.leave cfg i w).lists = s.lists := by
  unfold SendState.leave
  split <;> rfl

@[simp] theorem leave_lines (s : SendState ι) (i : ι) (w : Worker) :
    (s.leave cfg i w).lines = s.lines := by
  unfold SendState.leave
  split <;> rfl

@[simp] theorem leave_clock (s : SendState ι) (i : ι) (w : Worker) :
    (s.leave cfg i w).clock = s.clock := by
  unfold SendState.leave
  split <;> rfl

@[simp] theorem leave_worker (s : SendState ι) (i : ι) (w : Worker) :
    (s.leave cfg i w).worker = Function.update s.worker i w := by
  unfold SendState.leave
  split <;> rfl

def ListsStep (s : SendState ι) (event : SendEvent ι)
    (lists : Table VendorDailyList) : Prop :=
  (∃ p f, lists = s.lists.update p f ∧
    ∀ l ∈ s.lists.rows, p l = true → LaterRow s event l (f.apply l)) ∨
  ∃ i b payload, event = .record i ∧ s.worker i = .recording b payload ∧
    lists = s.lists.put (newVersion cfg.feed s.lists (freshId s.lists) b payload)

end

omit [DecidableEq ι] in
theorem ListsStep.unchanged (event : SendEvent ι) : ListsStep cfg s event s.lists := by
  refine .inl ⟨fun _ => false, setFailed "", ?_, ?_⟩
  · exact (Table.update_eq_self fun _ _ => rfl).symm
  · intro l _ hp
    cases hp

theorem step_lists (cfg : SendConfig) (event : SendEvent ι) :
    ListsStep cfg s event (sendStep cfg s event).lists := by
  cases event with
  | elapse microseconds => exact .unchanged _
  | start i b =>
    dsimp only [sendStep]
    split
    · split
      · exact .unchanged _
      · split
        · exact .unchanged _
        · exact .unchanged _
    · exact .unchanged _
  | search i =>
    dsimp only [sendStep]
    split
    · split
      · rw [leave_lists]
        exact .unchanged _
      · exact .unchanged _
    · exact .unchanged _
  | assembled i payload =>
    dsimp only [sendStep]
    split
    · split
      · rw [leave_lists]
        exact .unchanged _
      · exact .unchanged _
    · exact .unchanged _
  | record i =>
    cases hworker : s.worker i with
    | recording b payload =>
      refine .inr ⟨i, b, payload, rfl, hworker, ?_⟩
      simp only [sendStep, hworker]
    | _ =>
      simp only [sendStep, hworker]
      exact .unchanged _
  | request i listId force =>
    dsimp only [sendStep]
    split
    · exact .unchanged _
    · exact .unchanged _
  | upload i =>
    dsimp only [sendStep]
    split
    · rename_i listId force _
      unfold upload
      dsimp only
      split
      · exact .unchanged _
      · exact .inl ⟨_, _, rfl, fun l _ _ => ⟨rfl, rfl, rfl, .same rfl rfl rfl⟩⟩
    · exact .unchanged _
  | acquire i =>
    cases hworker : s.worker i with
    | uploaded list force =>
      simp only [sendStep, hworker, acquire]
      split
      · refine .inl ⟨_, _, rfl, fun l _ hp => ?_⟩
        rw [Bool.and_eq_true, beq_iff_eq] at hp
        exact ⟨rfl, rfl, rfl, .acquired i list force hworker hp.1.symm hp.2⟩
      · exact .unchanged _
    | _ =>
      simp only [sendStep, hworker]
      exact .unchanged _
  | mail i result =>
    dsimp only [sendStep]
    split
    · exact .unchanged _
    · exact .unchanged _
  | finish i =>
    cases hworker : s.worker i with
    | mailed lease result =>
      cases result with
      | ok messageId =>
        simp only [sendStep, hworker, finish]
        split
        · exact .inl ⟨_, _, rfl, fun l _ hp =>
            ⟨rfl, rfl, rfl, .marked i lease messageId hworker hp⟩⟩
        · exact .unchanged _
      | error error =>
        simp only [sendStep, hworker, finish]
        exact .inl ⟨_, _, rfl, fun l _ hp => ⟨rfl, rfl, rfl, .failed i lease error hworker hp⟩⟩
    | _ =>
      simp only [sendStep, hworker]
      exact .unchanged _
  | crash i =>
    show ListsStep cfg s (.crash i) (s.leave cfg i .idle).lists
    rw [leave_lists]
    exact .unchanged _
  | reclaim => exact .inl ⟨_, _, rfl, fun l _ hp => ⟨rfl, rfl, rfl, .reclaimed _ hp⟩⟩

theorem rows_put_newVersion (i : Table VendorDailyList) (c : Config) (b : Bucket)
    (payload : List PayloadLine) :
    (i.put (newVersion c i (freshId i) b payload)).rows =
      i.rows ++ [newVersion c i (freshId i) b payload] :=
  Table.put_of_fresh (freshId_fresh i)

theorem step_later (cfg : SendConfig) (event : SendEvent ι) :
    ∀ l ∈ s.lists.rows, ∃ l' ∈ (sendStep cfg s event).lists.rows, LaterRow s event l l' := by
  rcases step_lists cfg (s := s) event with ⟨p, f, heq, hlater⟩ | ⟨i, b, payload, rfl, _, heq⟩
  · rw [heq]
    exact later_of_update hlater
  · intro l hl
    rw [heq, rows_put_newVersion]
    exact ⟨l, List.mem_append_left _ hl, LaterRow.refl _ l⟩

theorem step_earlier (event : SendEvent ι) :
    ∀ l' ∈ (sendStep cfg s event).lists.rows, (∃ l ∈ s.lists.rows, LaterRow s event l l') ∨
      ∃ i b payload, event = .record i ∧ s.worker i = .recording b payload ∧
        l' = newVersion cfg.feed s.lists (freshId s.lists) b payload := by
  intro l' hl'
  rcases step_lists cfg (s := s) event with
    ⟨p, f, heq, hlater⟩ | ⟨i, b, payload, rfl, hworker, heq⟩
  · left
    rw [heq] at hl'
    obtain ⟨l, hl, ⟨hp, rfl⟩ | ⟨_, rfl⟩⟩ := Table.mem_update_iff.mp hl'
    · exact ⟨l, hl, hlater l hl hp⟩
    · exact ⟨l', hl, LaterRow.refl event l'⟩
  · rw [heq, rows_put_newVersion] at hl'
    rcases List.mem_append.mp hl' with hold | hnew
    · exact .inl ⟨l', hold, LaterRow.refl _ l'⟩
    · exact .inr ⟨i, b, payload, rfl, hworker, List.mem_singleton.mp hnew⟩

variable {l : VendorDailyList} {i : ι}

theorem later_of_id {l' : VendorDailyList} (hl : l ∈ s.lists.rows)
    (hl' : l' ∈ (sendStep cfg s event).lists.rows) (hid : l'.id = l.id) :
    LaterRow s event l l' := by
  obtain ⟨l'', hl'', hlater⟩ := step_later cfg event l hl
  rwa [(sendStep cfg s event).lists.eq_of_key_eq hl' hl'' (hid.trans hlater.id.symm)]

/-! ## What a step does to a worker -/

inductive WorkerStep (cfg : SendConfig) (s : SendState ι) : SendEvent ι → Worker → Worker → Prop
  | starts (i : ι) (b : Bucket) (hlock : cfg.lockKey b ∉ s.locks) :
      WorkerStep cfg s (.start i b) .idle (.searching b)
  | retries (i : ι) (b : Bucket) (id : Nat) :
      WorkerStep cfg s (.search i) (.searching b) (.sending id false)
  | assembles (i : ι) (b : Bucket) (hnone : findUnsentRowForBucket s.lists b = none) :
      WorkerStep cfg s (.search i) (.searching b) (.assembling b)
  | cancels (i : ι) (b : Bucket) (payload : List PayloadLine) :
      WorkerStep cfg s (.assembled i payload) (.assembling b) .idle
  | assembles' (i : ι) (b : Bucket) (payload : List PayloadLine) :
      WorkerStep cfg s (.assembled i payload) (.assembling b) (.recording b payload)
  | records (i : ι) (b : Bucket) (payload : List PayloadLine) (id : Nat) :
      WorkerStep cfg s (.record i) (.recording b payload) (.sending id false)
  | requests (i : ι) (listId : Nat) (force : Bool) :
      WorkerStep cfg s (.request i listId force) .idle (.sending listId force)
  | uploads (i : ι) (listId : Nat) (force : Bool) (list : VendorDailyList)
      (hlist : list ∈ (sendStep cfg s (.upload i)).lists.rows) :
      WorkerStep cfg s (.upload i) (.sending listId force) (.uploaded list force)
  | skips (i : ι) (listId : Nat) (force : Bool) :
      WorkerStep cfg s (.upload i) (.sending listId force) .idle
  | acquires (i : ι) (list : VendorDailyList) (force : Bool)
      (hfree : ∃ l ∈ s.lists.rows, l.id = list.id ∧ acquirable force l.emailStatus = true) :
      WorkerStep cfg s (.acquire i) (.uploaded list force)
        (.mailing ⟨list.id, s.clock, list.lineIds⟩)
  | loses (i : ι) (list : VendorDailyList) (force : Bool) :
      WorkerStep cfg s (.acquire i) (.uploaded list force) .idle
  | mails (i : ι) (lease : Lease) (result : Except String String) :
      WorkerStep cfg s (.mail i result) (.mailing lease) (.mailed lease result)
  | finishes (i : ι) (lease : Lease) (result : Except String String) :
      WorkerStep cfg s (.finish i) (.mailed lease result) .idle
  | crashes (i : ι) (w : Worker) : WorkerStep cfg s (.crash i) w .idle

/-- The workers after a step: one of them has made a transition, or none. -/
def WorkersStep (cfg : SendConfig) (s : SendState ι) (event : SendEvent ι) (worker : ι → Worker) :
    Prop :=
  (worker = s.worker ∧ ∀ i lease result, event = .finish i → s.worker i ≠ .mailed lease result) ∨
    ∃ i w, event.worker? = some i ∧ worker = Function.update s.worker i w ∧
      WorkerStep cfg s event (s.worker i) w

theorem WorkersStep.of_worker {v w : Worker} (hevent : event.worker? = some i)
    (hworker : s.worker i = v) (h : WorkerStep cfg s event v w) :
    WorkersStep cfg s event (Function.update s.worker i w) :=
  .inr ⟨i, w, hevent, rfl, by rw [hworker]; exact h⟩

theorem step_worker (cfg : SendConfig) (event : SendEvent ι) :
    WorkersStep cfg s event (sendStep cfg s event).worker := by
  cases event with
  | elapse microseconds => exact .inl ⟨rfl, fun _ _ _ heq => by cases heq⟩
  | start i b =>
    cases hworker : s.worker i with
    | idle =>
      simp only [sendStep, hworker]
      split
      · exact .inl ⟨rfl, fun _ _ _ heq => by cases heq⟩
      · rename_i hlock
        split
        · exact .inl ⟨rfl, fun _ _ _ heq => by cases heq⟩
        · exact .of_worker rfl hworker (.starts i b hlock)
    | _ =>
      simp only [sendStep, hworker]
      exact .inl ⟨rfl, fun _ _ _ heq => by cases heq⟩
  | search i =>
    cases hworker : s.worker i with
    | searching b =>
      cases hfind : findUnsentRowForBucket s.lists b with
      | some l =>
        simp only [sendStep, hworker, hfind, leave_worker]
        exact .of_worker rfl hworker (.retries i b l.id)
      | none =>
        simp only [sendStep, hworker, hfind]
        exact .of_worker rfl hworker (.assembles i b hfind)
    | _ =>
      simp only [sendStep, hworker]
      exact .inl ⟨rfl, fun _ _ _ heq => by cases heq⟩
  | assembled i payload =>
    cases hworker : s.worker i with
    | assembling b =>
      simp only [sendStep, hworker]
      split
      · rw [leave_worker]
        exact .of_worker rfl hworker (.cancels i b payload)
      · exact .of_worker rfl hworker (.assembles' i b payload)
    | _ =>
      simp only [sendStep, hworker]
      exact .inl ⟨rfl, fun _ _ _ heq => by cases heq⟩
  | record i =>
    cases hworker : s.worker i with
    | recording b payload =>
      simp only [sendStep, hworker, leave_worker]
      exact .of_worker rfl hworker (.records i b payload _)
    | _ =>
      simp only [sendStep, hworker]
      exact .inl ⟨rfl, fun _ _ _ heq => by cases heq⟩
  | request i listId force =>
    cases hworker : s.worker i with
    | idle =>
      simp only [sendStep, hworker]
      exact .of_worker rfl hworker (.requests i listId force)
    | _ =>
      simp only [sendStep, hworker]
      exact .inl ⟨rfl, fun _ _ _ heq => by cases heq⟩
  | upload i =>
    cases hworker : s.worker i with
    | sending listId force =>
      have hstep : sendStep cfg s (.upload i) = upload cfg s i listId force := by
        simp only [sendStep, hworker]
      cases hget : (s.lists.update (fun l => l.id == listId && l.pdfStoragePath.isNone)
          (setPdfPath cfg)).get? listId with
      | none =>
        have hskip : upload cfg s i listId force = s.setWorker i .idle := by
          unfold upload
          dsimp only
          rw [hget]
        rw [hstep, hskip]
        exact .of_worker rfl hworker (.skips i listId force)
      | some l =>
        have hupload : (upload cfg s i listId force).lists = s.lists.update
              (fun l => l.id == listId && l.pdfStoragePath.isNone) (setPdfPath cfg) ∧
            (upload cfg s i listId force).worker = Function.update s.worker i
              (if l.sentAt.isSome && !force || l.recipientEmail.isNone then .idle
              else .uploaded l force) := by
          unfold upload
          dsimp only
          rw [hget]
          exact ⟨rfl, rfl⟩
        rw [hstep, hupload.2]
        split
        · exact .of_worker rfl hworker (.skips i listId force)
        · refine .of_worker rfl hworker (.uploads i listId force l ?_)
          rw [hstep, hupload.1]
          exact (Table.get?_eq_some.mp hget).1
    | _ =>
      simp only [sendStep, hworker]
      exact .inl ⟨rfl, fun _ _ _ heq => by cases heq⟩
  | acquire i =>
    cases hworker : s.worker i with
    | uploaded list force =>
      simp only [sendStep, hworker, acquire]
      split
      · rename_i hfree
        refine .of_worker rfl hworker (.acquires i list force ?_)
        obtain ⟨l, hl, hcond⟩ := List.any_eq_true.mp hfree
        rw [Bool.and_eq_true, beq_iff_eq] at hcond
        exact ⟨l, hl, hcond⟩
      · exact .of_worker rfl hworker (.loses i list force)
    | _ =>
      simp only [sendStep, hworker]
      exact .inl ⟨rfl, fun _ _ _ heq => by cases heq⟩
  | mail i result =>
    cases hworker : s.worker i with
    | mailing lease =>
      simp only [sendStep, hworker]
      exact .of_worker rfl hworker (.mails i lease result)
    | _ =>
      simp only [sendStep, hworker]
      exact .inl ⟨rfl, fun _ _ _ heq => by cases heq⟩
  | finish i =>
    cases hworker : s.worker i with
    | mailed lease result =>
      have hidle : (sendStep cfg s (.finish i)).worker = Function.update s.worker i .idle := by
        simp only [sendStep, hworker, finish]
        cases result with
        | ok messageId =>
          dsimp only
          split <;> rfl
        | error error => rfl
      rw [hidle]
      exact .of_worker rfl hworker (.finishes i lease result)
    | _ =>
      simp only [sendStep, hworker]
      refine .inl ⟨rfl, fun j lease result heq => ?_⟩
      cases heq
      rw [hworker]
      simp
  | crash i =>
    show WorkersStep cfg s (.crash i) (s.leave cfg i .idle).worker
    rw [leave_worker]
    exact .of_worker rfl rfl (.crashes i _)
  | reclaim => exact .inl ⟨rfl, fun _ _ _ heq => by cases heq⟩

variable {lease : Lease} {list : VendorDailyList} {j : ι}

/-- A lease after a step: one from before that is not used up, or a new one. -/
theorem step_lease (event : SendEvent ι)
    (h : ((sendStep cfg s event).worker j).lease? = some lease) :
    ((s.worker j).lease? = some lease ∧
        ∀ result, event = .finish j → s.worker j ≠ .mailed lease result) ∨
      (event = .acquire j ∧ ∃ list force, s.worker j = .uploaded list force ∧
        lease = ⟨list.id, s.clock, list.lineIds⟩ ∧
        ∃ l ∈ s.lists.rows, l.id = list.id ∧ acquirable force l.emailStatus = true) := by
  rcases step_worker cfg (s := s) event with ⟨heq, hfinish⟩ | ⟨i, w, hevent, heq, hstep⟩
  · rw [heq] at h
    exact .inl ⟨h, fun result => hfinish j lease result⟩
  · rw [heq] at h
    by_cases hji : j = i
    · subst hji
      rw [Function.update_self] at h
      generalize hworker : s.worker j = v at hstep ⊢
      cases hstep with
      | acquires i list force hfree =>
        cases hevent
        exact .inr ⟨rfl, list, force, rfl, (Option.some.inj h).symm, hfree⟩
      | mails i lease' result => exact .inl ⟨h, fun _ hfinish => by cases hfinish⟩
      | _ => cases h
    · rw [Function.update_of_ne hji] at h
      refine .inl ⟨h, fun result hfinish => ?_⟩
      rw [hfinish] at hevent
      exact absurd (Option.some.inj hevent) hji

theorem step_uploaded (event : SendEvent ι) {force : Bool}
    (h : (sendStep cfg s event).worker j = .uploaded list force) :
    s.worker j = .uploaded list force ∨ list ∈ (sendStep cfg s event).lists.rows := by
  rcases step_worker cfg (s := s) event with ⟨heq, _⟩ | ⟨i, w, _, heq, hstep⟩
  · rw [heq] at h
    exact .inl h
  · rw [heq] at h
    by_cases hji : j = i
    · subst hji
      rw [Function.update_self] at h
      subst h
      right
      generalize s.worker j = v at hstep
      cases hstep with
      | uploads i listId force list hlist => exact hlist
    · rw [Function.update_of_ne hji] at h
      exact .inl h

/-! ## The leases -/

/-- The lease was taken away, and whoever acquired the list since is later. -/
def Past (lists : Table VendorDailyList) (clock : Int) (lease : Lease) : Prop :=
  lease.acquiredAt + reclaimAfter < clock ∧
    ∀ l ∈ lists.rows, l.id = lease.listId → l.emailStatus = .sending →
      ∀ t, l.sendingAcquiredAt = some t → lease.acquiredAt < t

structure LeaseInv (s : SendState ι) : Prop where
  status : ∀ l ∈ s.lists.rows, l.emailStatus = .sent → l.sentAt ≠ none
  acquired : ∀ l ∈ s.lists.rows, l.emailStatus = .sending →
    ∃ t, l.sendingAcquiredAt = some t ∧ t ≤ s.clock
  uploaded : ∀ i list force, s.worker i = .uploaded list force →
    ∃ l ∈ s.lists.rows, l.id = list.id ∧ l.payload = list.payload
  row : ∀ i lease, (s.worker i).lease? = some lease → lease.acquiredAt ≤ s.clock ∧
    ∃ l ∈ s.lists.rows, l.id = lease.listId ∧ l.lineIds = lease.lineIds
  fence : ∀ i lease, (s.worker i).lease? = some lease →
    Current s.lists lease ∨ Past s.lists s.clock lease
  apart : ∀ i j lease lease', (s.worker i).lease? = some lease → (s.worker j).lease? = some lease' →
    lease.listId = lease'.listId → lease.acquiredAt = lease'.acquiredAt → i = j

omit [DecidableEq ι] in
theorem LeaseInv.start (lines : Table Line) (clock : Int) :
    LeaseInv (SendState.start (ι := ι) lines clock) where
  status _ h := absurd h List.not_mem_nil
  acquired _ h := absurd h List.not_mem_nil
  uploaded _ _ _ h := by cases h
  row _ _ h := by cases h
  fence _ _ h := by cases h
  apart _ _ _ _ h := by cases h

theorem fencedBy_iff {listId : Nat} {token : Int} : fencedBy listId token l = true ↔
      l.id = listId ∧ l.emailStatus = .sending ∧ l.sendingAcquiredAt = some token := by
  simp [fencedBy, and_assoc]

theorem Lease.token_le (lease : Lease) : lease.token ≤ lease.acquiredAt := by
  unfold Lease.token
  omega

omit [DecidableEq ι] in
theorem LeaseInv.current_of_fenced (h : LeaseInv s) (hlease : (s.worker i).lease? = some lease)
    (hl : l ∈ s.lists.rows) (hfence : fencedBy lease.listId lease.token l = true) :
    Current s.lists lease := by
  obtain ⟨hid, hstatus, htoken⟩ := fencedBy_iff.mp hfence
  rcases h.fence i lease hlease with hcurrent | ⟨_, hpast⟩
  · exact hcurrent
  · have hlt := hpast l hl hid hstatus _ htoken
    have hle := lease.token_le
    omega

theorem clock_le (cfg : SendConfig) (event : SendEvent ι) : s.clock ≤ (sendStep cfg s event).clock := by
  cases event with
  | elapse microseconds =>
    show s.clock ≤ s.clock + microseconds
    omega
  | start i b =>
    dsimp only [sendStep]
    split
    · split
      · exact le_refl _
      · split <;> exact le_refl _
    · exact le_refl _
  | search i =>
    dsimp only [sendStep]
    split
    · split
      · rw [leave_clock]
      · exact le_refl _
    · exact le_refl _
  | assembled i payload =>
    dsimp only [sendStep]
    split
    · split
      · rw [leave_clock]
      · exact le_refl _
    · exact le_refl _
  | record i =>
    dsimp only [sendStep]
    split
    · dsimp only
      rw [leave_clock]
    · exact le_refl _
  | request i listId force =>
    dsimp only [sendStep]
    split <;> exact le_refl _
  | upload i =>
    dsimp only [sendStep]
    split
    · unfold upload
      dsimp only
      split <;> exact le_refl _
    · exact le_refl _
  | acquire i =>
    dsimp only [sendStep]
    split
    · unfold acquire
      split <;> exact le_refl _
    · exact le_refl _
  | mail i result =>
    dsimp only [sendStep]
    split <;> exact le_refl _
  | finish i =>
    dsimp only [sendStep]
    split
    · unfold finish
      split
      · split <;> exact le_refl _
      · exact le_refl _
    · exact le_refl _
  | crash i =>
    show s.clock ≤ (s.leave cfg i .idle).clock
    rw [leave_clock]
  | reclaim => exact le_refl _

theorem acquire_row {force : Bool} (hworker : s.worker i = .uploaded list force)
    (hl : l ∈ s.lists.rows) (hid : l.id = list.id) (hfree : acquirable force l.emailStatus = true) :
    (setSending s.clock).apply l ∈ (sendStep cfg s (.acquire i)).lists.rows := by
  have hcond : (l.id == list.id && acquirable force l.emailStatus) = true := by
    rw [hid, hfree]
    simp
  simp only [sendStep, hworker, acquire]
  rw [if_pos (List.any_eq_true.mpr ⟨l, hl, hcond⟩)]
  exact Table.mem_update_iff.mpr ⟨l, hl, .inl ⟨hcond, rfl⟩⟩

theorem acquirable_sending (force : Bool) : acquirable force .sending = false := by
  cases force <;> rfl

theorem Current.eq {lists : Table VendorDailyList} (h : Current lists lease)
    (hl : l ∈ lists.rows) (hid : l.id = lease.listId) :
    l.emailStatus = .sending ∧ l.sendingAcquiredAt = some lease.acquiredAt := by
  obtain ⟨l', hl', hid', hstatus, hacquired⟩ := h
  obtain rfl : l' = l := lists.eq_of_key_eq hl' hl (hid'.trans hid.symm)
  exact ⟨hstatus, hacquired⟩

omit [DecidableEq ι] in
theorem LeaseInv.finisher (h : LeaseInv s) {i j : ι} {lease' : Lease}
    {result : Except String String} (hlease : (s.worker j).lease? = some lease)
    (hcurrent : Current s.lists lease) (hworker : s.worker i = .mailed lease' result)
    (hl : l ∈ s.lists.rows) (hid : l.id = lease.listId)
    (hfence : fencedBy lease'.listId lease'.token l = true) :
    i = j ∧ s.worker j = .mailed lease result := by
  have hlease' : (s.worker i).lease? = some lease' := by rw [hworker]; rfl
  have hcurrent' := h.current_of_fenced hlease' hl hfence
  have hid' : l.id = lease'.listId := (fencedBy_iff.mp hfence).1
  have hsame : lease'.acquiredAt = lease.acquiredAt :=
    Option.some.inj ((hcurrent'.eq hl hid').2.symm.trans (hcurrent.eq hl hid).2)
  have hij : i = j := h.apart i j lease' lease hlease' hlease (hid'.symm.trans hid) hsame
  subst hij
  have heq : lease' = lease := Option.some.inj (hlease'.symm.trans hlease)
  rw [heq] at hworker
  exact ⟨rfl, hworker⟩

theorem Past.step (h : Past s.lists s.clock lease) (event : SendEvent ι) :
    Past (sendStep cfg s event).lists (sendStep cfg s event).clock lease := by
  obtain ⟨hold, hpast⟩ := h
  have hclock := clock_le cfg (s := s) event
  refine ⟨by omega, fun l' hl' hid' hsending t ht => ?_⟩
  rcases step_earlier event l' hl' with ⟨l, hl, hlater⟩ | ⟨i, b, payload, _, _, rfl⟩
  · cases hlater.step with
    | same hstatus _ hacquired =>
      exact hpast l hl (hlater.id.symm.trans hid') (hstatus.symm.trans hsending) t
        (hacquired.symm.trans ht)
    | acquired i list force _ _ _ =>
      have hnow : s.clock = t := Option.some.inj ht
      unfold reclaimAfter at hold
      omega
    | marked i lease' messageId _ _ => cases hsending
    | failed i lease' error _ _ => cases hsending
    | reclaimed error _ => cases hsending
  · cases hsending

omit [DecidableEq ι] in
theorem Past.not_current (h : Past s.lists s.clock lease) : ¬Current s.lists lease := by
  rintro ⟨l, hl, hid, hstatus, hacquired⟩
  exact lt_irrefl _ (h.2 l hl hid hstatus _ hacquired)

theorem LeaseInv.step_fence (h : LeaseInv s) (event : SendEvent ι)
    (hlease : (s.worker j).lease? = some lease)
    (hunused : ∀ result, event = .finish j → s.worker j ≠ .mailed lease result) :
    Current (sendStep cfg s event).lists lease ∨
      Past (sendStep cfg s event).lists (sendStep cfg s event).clock lease := by
  have hclock := clock_le cfg (s := s) event
  rcases h.fence j lease hlease with hcurrent | ⟨hold, hpast⟩
  · have hcurrent' := hcurrent
    obtain ⟨l, hl, hid, hstatus, hacquired⟩ := hcurrent'
    obtain ⟨l', hl', hlater⟩ := step_later cfg event l hl
    cases hlater.step with
    | same hstatus' _ hacquired' =>
      exact .inl ⟨l', hl', hlater.id.trans hid, hstatus'.trans hstatus,
        hacquired'.trans hacquired⟩
    | acquired i list force _ _ hfree =>
      rw [hstatus, acquirable_sending] at hfree
      cases hfree
    | marked i lease' messageId hworker hfence =>
      obtain ⟨rfl, hmailed⟩ := h.finisher hlease hcurrent hworker hl hid hfence
      exact absurd hmailed (hunused _ rfl)
    | failed i lease' error hworker hfence =>
      obtain ⟨rfl, hmailed⟩ := h.finisher hlease hcurrent hworker hl hid hfence
      exact absurd hmailed (hunused _ rfl)
    | reclaimed error hstuck =>
      right
      rw [isStuck, hacquired, Bool.and_eq_true, Option.any_some, decide_eq_true_eq] at hstuck
      refine ⟨by omega, fun l'' hl'' hid'' hsending => ?_⟩
      have heq := (sendStep cfg s .reclaim).lists.eq_of_key_eq hl'' hl'
        (hid''.trans (hid.symm.trans hlater.id.symm))
      rw [heq] at hsending
      cases hsending
  · exact .inr (Past.step ⟨hold, hpast⟩ event)

theorem LeaseInv.step (h : LeaseInv s) (event : SendEvent ι) :
    LeaseInv (sendStep cfg s event) := by
  have hclock := clock_le cfg (s := s) event
  refine ⟨?_, ?_, ?_, ?_, ?_, ?_⟩
  · intro l' hl' hsent
    rcases step_earlier event l' hl' with ⟨l, hl, hlater⟩ | ⟨i, b, payload, _, _, rfl⟩
    · cases hlater.step with
      | same hstatus hsentAt _ =>
        rw [hsentAt]
        exact h.status l hl (hstatus.symm.trans hsent)
      | acquired i list force _ _ _ => cases hsent
      | marked i lease messageId _ _ => exact Option.some_ne_none _
      | failed i lease error _ _ => cases hsent
      | reclaimed error _ => cases hsent
    · cases hsent
  · intro l' hl' hsending
    rcases step_earlier event l' hl' with ⟨l, hl, hlater⟩ | ⟨i, b, payload, _, _, rfl⟩
    · cases hlater.step with
      | same hstatus _ hacquired =>
        obtain ⟨t, ht, hle⟩ := h.acquired l hl (hstatus.symm.trans hsending)
        exact ⟨t, hacquired.trans ht, hle.trans hclock⟩
      | acquired i list force _ _ _ => exact ⟨s.clock, rfl, hclock⟩
      | marked i lease messageId _ _ => cases hsending
      | failed i lease error _ _ => cases hsending
      | reclaimed error _ => cases hsending
    · cases hsending
  · intro i list force hworker
    rcases step_uploaded event hworker with hbefore | hlist
    · obtain ⟨l, hl, hid, hpayload⟩ := h.uploaded i list force hbefore
      obtain ⟨l', hl', hlater⟩ := step_later cfg event l hl
      exact ⟨l', hl', hlater.id.trans hid, hlater.payload.trans hpayload⟩
    · exact ⟨list, hlist, rfl, rfl⟩
  · intro i lease hlease
    rcases step_lease event hlease with ⟨hbefore, _⟩ | ⟨_, list, force, hworker, rfl, _⟩
    · obtain ⟨hle, l, hl, hid, hlines⟩ := h.row i lease hbefore
      obtain ⟨l', hl', hlater⟩ := step_later cfg event l hl
      refine ⟨hle.trans hclock, l', hl', hlater.id.trans hid, ?_⟩
      rw [← hlines, VendorDailyList.lineIds, hlater.payload]
      rfl
    · obtain ⟨l, hl, hid, hpayload⟩ := h.uploaded i list force hworker
      obtain ⟨l', hl', hlater⟩ := step_later cfg event l hl
      refine ⟨hclock, l', hl', hlater.id.trans hid, ?_⟩
      show l'.lineIds = list.lineIds
      rw [VendorDailyList.lineIds, hlater.payload, hpayload]
      rfl
  · intro i lease hlease
    rcases step_lease event hlease with ⟨hbefore, hunused⟩ | ⟨rfl, list, force, hworker, rfl, hfree⟩
    · exact h.step_fence event hbefore hunused
    · obtain ⟨l, hl, hid, hcond⟩ := hfree
      exact .inl ⟨_, acquire_row hworker hl hid hcond, hid, rfl, rfl⟩
  · intro i j lease lease' hi hj hid hacquired
    -- A new lease is later than every one of the same list that a worker still has.
    have hfresh : ∀ {k : ι} {old : Lease} {list : VendorDailyList} {force : Bool},
        (s.worker k).lease? = some old → old.listId = list.id → old.acquiredAt = s.clock →
        (∃ l ∈ s.lists.rows, l.id = list.id ∧ acquirable force l.emailStatus = true) → False := by
      rintro k old list force hold hlist hnow ⟨l, hl, hlid, hfree⟩
      rcases h.fence k old hold with hcurrent | ⟨hpast, _⟩
      · rw [(hcurrent.eq hl (hlid.trans hlist.symm)).1, acquirable_sending] at hfree
        cases hfree
      · unfold reclaimAfter at hpast
        omega
    rcases step_lease event hi with ⟨hi', _⟩ | ⟨hev, list, force, _, rfl, hfree⟩
    · rcases step_lease event hj with ⟨hj', _⟩ | ⟨_, list', force', _, rfl, hfree'⟩
      · exact h.apart i j lease lease' hi' hj' hid hacquired
      · exact (hfresh hi' hid hacquired hfree').elim
    · rcases step_lease event hj with ⟨hj', _⟩ | ⟨hev', _⟩
      · exact (hfresh hj' hid.symm hacquired.symm hfree).elim
      · rw [hev] at hev'
        cases hev'
        rfl

end Prequest.DailyList
