import Prequest.DailyList.Fence
import Prequest.DailyList.FeedRun

/-!
# Runs of sends

* `fenced_iff`: the law holds exactly for the runs in which versions are recorded alone.
* `two_versions_at_once`: a run of two instances.
-/

namespace Prequest.DailyList

open Prequest.Lib

variable {ι : Type} [DecidableEq ι] {cfg : SendConfig} {s : SendState ι} {event : SendEvent ι}

/-! ## Marking a list -/

theorem LeaseInv.marked (h : LeaseInv s) {id : Nat}
    (hmarked : MarkedSent s.lists (sendStep cfg s event).lists id) :
    (∃ i, event = .finish i ∧ Holds s i id) ∧
      ∃ l ∈ s.lists.rows, l.id = id ∧ l.emailStatus = .sending ∧
        ∃ l' ∈ (sendStep cfg s event).lists.rows, l'.id = id ∧ l'.emailStatus = .sent := by
  obtain ⟨l, hl, l', hl', rfl, hid', hwhy⟩ := hmarked
  have hlater := later_of_id hl hl' hid'
  cases hlater.step with
  | same hstatus hsent _ =>
    rw [hstatus, hsent] at hwhy
    rcases hwhy with ⟨hnot, hyes⟩ | hne
    · exact absurd hyes hnot
    · exact absurd rfl hne
  | acquired i list force _ _ _ =>
    rcases hwhy with ⟨_, hyes⟩ | hne
    · cases hyes
    · exact absurd rfl hne
  | marked i lease messageId hworker hfence =>
    have hlease : (s.worker i).lease? = some lease := by rw [hworker]; rfl
    obtain ⟨hid, hstatus, _⟩ := fencedBy_iff.mp hfence
    exact ⟨⟨i, rfl, lease, hlease, hid.symm, h.current_of_fenced hlease hl hfence⟩,
      l, hl, rfl, hstatus, _, hl', rfl, rfl⟩
  | failed i lease error _ _ =>
    rcases hwhy with ⟨_, hyes⟩ | hne
    · cases hyes
    · exact absurd rfl hne
  | reclaimed error _ =>
    rcases hwhy with ⟨_, hyes⟩ | hne
    · cases hyes
    · exact absurd rfl hne

omit [DecidableEq ι] in
theorem LeaseInv.one_holder (h : LeaseInv s) {i j : ι} {id : Nat} (hi : Holds s i id)
    (hj : Holds s j id) : i = j := by
  obtain ⟨lease, hlease, rfl, hcurrent⟩ := hi
  obtain ⟨lease', hlease', hid, hcurrent'⟩ := hj
  refine h.apart i j lease lease' hlease hlease' hid.symm ?_
  have hcurrent'' := hcurrent
  obtain ⟨l, hl, hlid, _, hacquired⟩ := hcurrent''
  exact Option.some.inj (hacquired.symm.trans (hcurrent'.eq hl (hlid.trans hid.symm)).2)

theorem run_sentAt (cfg : SendConfig) (events : List (SendEvent ι)) (s : SendState ι) :
    ∀ l ∈ s.lists.rows, ∃ l' ∈ (run (sendStep cfg) s events).lists.rows, l'.id = l.id ∧
      (l.sentAt ≠ none → l'.sentAt ≠ none) := by
  refine run_rel (R := fun s s' : SendState ι => ∀ l ∈ s.lists.rows, ∃ l' ∈ s'.lists.rows,
    l'.id = l.id ∧ (l.sentAt ≠ none → l'.sentAt ≠ none)) ?_ ?_ ?_ s events
  · exact fun s l hl => ⟨l, hl, rfl, fun h => h⟩
  · intro s t u hst htu l hl
    obtain ⟨l', hl', hid, hsent⟩ := hst l hl
    obtain ⟨l'', hl'', hid', hsent'⟩ := htu l' hl'
    exact ⟨l'', hl'', hid'.trans hid, fun h => hsent' (hsent h)⟩
  · intro s event l hl
    obtain ⟨l', hl', hlater⟩ := step_later cfg event l hl
    refine ⟨l', hl', hlater.id, fun hne => ?_⟩
    cases hlater.step with
    | same _ hsent _ => rwa [hsent]
    | acquired i list force _ _ _ => exact hne
    | marked i lease messageId _ _ => exact Option.some_ne_none _
    | failed i lease error _ _ => exact hne
    | reclaimed error _ => exact hne

variable {l : VendorDailyList}

theorem resent_or_forced (cfg : SendConfig) (events : List (SendEvent ι)) {s : SendState ι}
    (hl : l ∈ s.lists.rows) (hstatus : l.emailStatus = .sent) :
    (∃ l' ∈ (run (sendStep cfg) s events).lists.rows, l'.id = l.id ∧ l'.emailStatus = .sent) ∨
      ∃ pre i post list, events = pre ++ .acquire i :: post ∧
        (run (sendStep cfg) s pre).worker i = .uploaded list true ∧ list.id = l.id := by
  induction events generalizing s l with
  | nil => exact .inl ⟨l, hl, rfl, hstatus⟩
  | cons event events ih =>
    obtain ⟨l', hl', hlater⟩ := step_later cfg event l hl
    have hnotFenced : ∀ listId token, fencedBy listId token l ≠ true := by
      intro listId token hfence
      rw [(fencedBy_iff.mp hfence).2.1] at hstatus
      cases hstatus
    have hstays : l'.emailStatus = .sent →
        (∃ l' ∈ (run (sendStep cfg) s (event :: events)).lists.rows,
          l'.id = l.id ∧ l'.emailStatus = .sent) ∨
        ∃ pre i post list, event :: events = pre ++ .acquire i :: post ∧
          (run (sendStep cfg) s pre).worker i = .uploaded list true ∧ list.id = l.id := by
      intro hsent
      rcases ih hl' hsent with ⟨l'', hl'', hid, hsent'⟩ | ⟨pre, i, post, list, rfl, hworker, hid⟩
      · exact .inl ⟨l'', hl'', hid.trans hlater.id, hsent'⟩
      · exact .inr ⟨event :: pre, i, post, list, rfl, hworker, hid.trans hlater.id⟩
    cases hlater.step with
    | same hstatus' _ _ => exact hstays (hstatus'.trans hstatus)
    | acquired i list force hworker hid hfree =>
      rw [hstatus] at hfree
      cases force with
      | true => exact .inr ⟨[], i, events, list, rfl, hworker, hid⟩
      | false => cases hfree
    | marked i lease messageId _ _ => exact hstays rfl
    | failed i lease error _ hfence => exact absurd hfence (hnotFenced _ _)
    | reclaimed error hstuck =>
      rw [isStuck, hstatus] at hstuck
      cases hstuck

/-! ## A worker whose lease is past -/

theorem LeaseInv.unchanged_of_past (h : LeaseInv s) {i : ι} {lease : Lease}
    (hlease : (s.worker i).lease? = some lease) (hpast : Past s.lists s.clock lease)
    (hevent : event.worker? = some i) :
    (sendStep cfg s event).lists = s.lists ∧ (sendStep cfg s event).lines = s.lines := by
  have hfree : ∀ l ∈ s.lists.rows, fencedBy lease.listId lease.token l = false := by
    intro l hl
    refine Bool.eq_false_iff.mpr fun hfence => ?_
    exact hpast.not_current (h.current_of_fenced hlease hl hfence)
  cases hworker : s.worker i with
  | mailing lease' =>
    cases event with
    | elapse microseconds => cases hevent
    | reclaim => cases hevent
    | crash j => exact ⟨leave_lists cfg s j .idle, leave_lines cfg s j .idle⟩
    | mail j result =>
      cases hevent
      simp only [sendStep, hworker]
      exact ⟨rfl, rfl⟩
    | _ =>
      cases hevent
      simp only [sendStep, hworker, and_self]
  | mailed lease' result =>
    obtain rfl : lease' = lease := by
      rw [hworker] at hlease
      exact Option.some.inj hlease
    cases event with
    | elapse microseconds => cases hevent
    | reclaim => cases hevent
    | crash j => exact ⟨leave_lists cfg s j .idle, leave_lines cfg s j .idle⟩
    | finish j =>
      cases hevent
      simp only [sendStep, hworker, finish]
      cases result with
      | ok messageId =>
        dsimp only
        rw [if_neg (by simpa using hfree)]
        exact ⟨rfl, rfl⟩
      | error error => exact ⟨Table.update_eq_self hfree, rfl⟩
    | _ =>
      cases hevent
      simp only [sendStep, hworker, and_self]
  | _ =>
    rw [hworker] at hlease
    cases hlease

/-! ## The locks -/

theorem step_lines (cfg : SendConfig) (event : SendEvent ι) :
    (sendStep cfg s event).lines = s.lines ∨
      ∃ i lease messageId, event = .finish i ∧ s.worker i = .mailed lease (.ok messageId) ∧
        (∃ list ∈ s.lists.rows, fencedBy lease.listId lease.token list = true ∧
          (markSent s.clock messageId).apply list ∈ (sendStep cfg s event).lists.rows) ∧
        (sendStep cfg s event).lines = lockLines s.clock lease.listId lease.lineIds s.lines := by
  cases event with
  | finish i =>
    cases hworker : s.worker i with
    | mailed lease result =>
      cases result with
      | ok messageId =>
        simp only [sendStep, hworker, finish]
        split
        · rename_i hany
          right
          obtain ⟨list, hlist, hfence⟩ := List.any_eq_true.mp hany
          exact ⟨i, lease, messageId, rfl, hworker, ⟨list, hlist, hfence,
            Table.mem_update_iff.mpr ⟨list, hlist, .inl ⟨hfence, rfl⟩⟩⟩, rfl⟩
        · exact .inl rfl
      | error error => exact .inl (by simp only [sendStep, hworker, finish])
    | _ => exact .inl (by simp only [sendStep, hworker])
  | elapse microseconds => exact .inl rfl
  | start i b =>
    left
    dsimp only [sendStep]
    split
    · split
      · rfl
      · split <;> rfl
    · rfl
  | search i =>
    left
    dsimp only [sendStep]
    split
    · split
      · exact leave_lines cfg s i _
      · rfl
    · rfl
  | assembled i payload =>
    left
    dsimp only [sendStep]
    split
    · split
      · exact leave_lines cfg s i _
      · rfl
    · rfl
  | record i =>
    left
    dsimp only [sendStep]
    split
    · exact leave_lines cfg s i _
    · rfl
  | request i listId force =>
    left
    dsimp only [sendStep]
    split <;> rfl
  | upload i =>
    left
    dsimp only [sendStep]
    split
    · unfold upload
      dsimp only
      split <;> rfl
    · rfl
  | acquire i =>
    left
    dsimp only [sendStep]
    split
    · unfold acquire
      split <;> rfl
    · rfl
  | mail i result =>
    left
    dsimp only [sendStep]
    split <;> rfl
  | crash i => exact .inl (leave_lines cfg s i _)
  | reclaim => exact .inl rfl

theorem LeaseInv.locks (h : LeaseInv s) {l l' : Line} (hl : l ∈ s.lines.rows)
    (hl' : l' ∈ (sendStep cfg s event).lines.rows) (hid : l'.id = l.id) (hne : l' ≠ l) :
    ∃ list ∈ s.lists.rows, l'.dailyListId = some list.id ∧ l.id ∈ list.lineIds ∧
      MarkedSent s.lists (sendStep cfg s event).lists list.id := by
  rcases step_lines cfg (s := s) event with
    heq | ⟨i, lease, messageId, rfl, hworker, ⟨list, hlist, hfence, hmarked⟩, heq⟩
  · rw [heq] at hl'
    exact absurd (s.lines.eq_of_key_eq hl' hl hid) hne
  · rw [heq] at hl'
    have hlease : (s.worker i).lease? = some lease := by rw [hworker]; rfl
    obtain ⟨hlistId, hstatus, _⟩ := fencedBy_iff.mp hfence
    obtain ⟨_, list', hlist', hid', hlines⟩ := h.row i lease hlease
    obtain rfl : list' = list := s.lists.eq_of_key_eq hlist' hlist (hid'.trans hlistId.symm)
    obtain ⟨l₀, hl₀, ⟨hmem, _, rfl⟩ | ⟨_, rfl⟩⟩ := mem_lockLines hl'
    · obtain rfl : l₀ = l := s.lines.eq_of_key_eq hl₀ hl hid
      refine ⟨list', hlist, by rw [hlistId], by rw [hlines]; exact hmem, ?_⟩
      refine ⟨list', hlist, _, hmarked, rfl, rfl, .inl ⟨?_, rfl⟩⟩
      rw [hstatus]
      simp
    · exact absurd (s.lines.eq_of_key_eq hl₀ hl hid) hne

/-! ## Sweeps -/

theorem released_or_held (cfg : SendConfig) (events : List (SendEvent ι)) {s : SendState ι}
    {t : Int} (hl : l ∈ s.lists.rows) (hstatus : l.emailStatus = .sending)
    (hacquired : l.sendingAcquiredAt = some t) :
    (∃ pre post, events = pre ++ post ∧ ∃ l' ∈ (run (sendStep cfg) s pre).lists.rows,
        l'.id = l.id ∧ l'.emailStatus ≠ .sending) ∨
      ∃ l' ∈ (run (sendStep cfg) s events).lists.rows, l'.id = l.id ∧ l'.emailStatus = .sending ∧
        l'.sendingAcquiredAt = some t := by
  induction events generalizing s l with
  | nil => exact .inr ⟨l, hl, rfl, hstatus, hacquired⟩
  | cons event events ih =>
    obtain ⟨l', hl', hlater⟩ := step_later cfg event l hl
    have hreleased : l'.emailStatus ≠ .sending →
        ∃ pre post, event :: events = pre ++ post ∧
          ∃ l' ∈ (run (sendStep cfg) s pre).lists.rows, l'.id = l.id ∧
            l'.emailStatus ≠ .sending :=
      fun hnot => ⟨[event], events, rfl, l', hl', hlater.id, hnot⟩
    cases hlater.step with
    | same hstatus' _ hacquired' =>
      rcases ih hl' (hstatus'.trans hstatus) (hacquired'.trans hacquired) with
        ⟨pre, post, rfl, l'', hl'', hid, hnot⟩ | ⟨l'', hl'', hid, hsending, hkept⟩
      · exact .inl ⟨event :: pre, post, rfl, l'', hl'', hid.trans hlater.id, hnot⟩
      · exact .inr ⟨l'', hl'', hid.trans hlater.id, hsending, hkept⟩
    | acquired i list force _ _ hfree =>
      rw [hstatus, acquirable_sending] at hfree
      cases hfree
    | marked i lease messageId _ _ => exact .inl (hreleased (by simp [markSent]))
    | failed i lease error _ _ => exact .inl (hreleased (by simp [setFailed]))
    | reclaimed error _ => exact .inl (hreleased (by simp [setFailed]))

theorem LeaseInv.released (h : LeaseInv s) (mid : List (SendEvent ι))
    (hlong : s.clock + reclaimAfter < (run (sendStep cfg) s mid).clock) (hl : l ∈ s.lists.rows) :
    ∃ mid₁ mid₂, mid ++ [.reclaim] = mid₁ ++ mid₂ ∧
      ∃ l' ∈ (run (sendStep cfg) s mid₁).lists.rows, l'.id = l.id ∧ l'.emailStatus ≠ .sending := by
  by_cases hstatus : l.emailStatus = .sending
  · obtain ⟨t, hacquired, hle⟩ := h.acquired l hl hstatus
    rcases released_or_held cfg mid hl hstatus hacquired with
      ⟨pre, post, rfl, hrest⟩ | ⟨l', hl', hid, hsending, hkept⟩
    · exact ⟨pre, post ++ [.reclaim], List.append_assoc _ _ _, hrest⟩
    · have hstuck : isStuck (run (sendStep cfg) s mid).clock l' = true := by
        rw [isStuck, hsending, hkept, Option.any_some, Bool.and_eq_true]
        exact ⟨rfl, decide_eq_true (by omega)⟩
      refine ⟨mid ++ [.reclaim], [], (List.append_nil _).symm, ?_⟩
      rw [run_append, run_cons, run_nil]
      exact ⟨_, Table.mem_update_iff.mpr ⟨l', hl', .inl ⟨hstuck, rfl⟩⟩, hid, by simp [setFailed]⟩
  · exact ⟨[], mid ++ [.reclaim], rfl, l, hl, rfl, hstatus⟩

/-! ## Versions -/

def OneUnsent (s : SendState ι) : Prop :=
  ∀ l ∈ s.lists.rows, ∀ l' ∈ s.lists.rows,
    l.bucket = l'.bucket → l.sentAt = none → l'.sentAt = none → l = l'

omit [DecidableEq ι] in
theorem LaterRow.unsent {l' : VendorDailyList} (h : LaterRow s event l l')
    (hsent : l'.sentAt = none) : l.sentAt = none := by
  cases h.step with
  | same _ hsame _ => exact hsame.symm.trans hsent
  | acquired i list force _ _ _ => exact hsent
  | marked i lease messageId _ _ => cases hsent
  | failed i lease error _ _ => exact hsent
  | reclaimed error _ => exact hsent

theorem step_oneUnsent (h : OneUnsent s) (event : SendEvent ι) :
    OneUnsent (sendStep cfg s event) ↔ RecordsAlone s event := by
  rcases step_lists cfg (s := s) event with hupdate | ⟨i, b, payload, rfl, hworker, heq⟩
  · refine iff_of_true ?_ ?_
    · obtain ⟨p, f, heq, hlater⟩ := hupdate
      intro l hl l' hl' hbucket hsent hsent'
      rw [heq] at hl hl'
      have hback : ∀ l ∈ (s.lists.update p f).rows, ∃ l₀ ∈ s.lists.rows, LaterRow s event l₀ l := by
        intro l hl
        obtain ⟨l₀, hl₀, ⟨hp, rfl⟩ | ⟨_, rfl⟩⟩ := Table.mem_update_iff.mp hl
        · exact ⟨l₀, hl₀, hlater l₀ hl₀ hp⟩
        · exact ⟨l, hl₀, LaterRow.refl event l⟩
      obtain ⟨l₀, hl₀, hlater₀⟩ := hback l hl
      obtain ⟨l₁, hl₁, hlater₁⟩ := hback l' hl'
      have hsame : l₀ = l₁ := h l₀ hl₀ l₁ hl₁
        (hlater₀.bucket.symm.trans (hbucket.trans hlater₁.bucket)) (hlater₀.unsent hsent)
        (hlater₁.unsent hsent')
      exact (s.lists.update p f).eq_of_key_eq hl hl'
        (hlater₀.id.trans ((congrArg VendorDailyList.id hsame).trans hlater₁.id.symm))
    · -- A record that adds no row has no worker at it.
      cases event with
      | record i =>
        intro b payload hworker
        obtain ⟨p, f, heq, _⟩ := hupdate
        simp only [sendStep, hworker] at heq
        have hlength := congrArg (fun t : Table VendorDailyList => t.rows.length) heq
        rw [rows_put_newVersion, List.length_append] at hlength
        have hmap : (s.lists.update p f).rows.length = s.lists.rows.length := List.length_map _
        rw [hmap] at hlength
        exact absurd hlength (by simp)
      | _ => trivial
  · have hmem : ∀ l, l ∈ (sendStep cfg s (.record i)).lists.rows ↔ l ∈ s.lists.rows ∨
        l = newVersion cfg.feed s.lists (freshId s.lists) b payload := by
      intro l
      rw [heq, rows_put_newVersion, List.mem_append, List.mem_singleton]
    constructor
    · intro hone b' payload' hworker' l hl hbucket hsent
      rw [hworker] at hworker'
      cases hworker'
      have hnew := hone l ((hmem l).mpr (.inl hl)) _ ((hmem _).mpr (.inr rfl)) hbucket hsent rfl
      have hfresh := Table.get?_eq_none.mp (freshId_fresh s.lists) l hl
      exact hfresh (congrArg VendorDailyList.id hnew)
    · intro halone l hl l' hl' hbucket hsent hsent'
      have hothers := halone b payload hworker
      rcases (hmem l).mp hl with hold | rfl
      · rcases (hmem l').mp hl' with hold' | rfl
        · exact h l hold l' hold' hbucket hsent hsent'
        · exact absurd hsent (hothers l hold hbucket)
      · rcases (hmem l').mp hl' with hold' | rfl
        · exact absurd hsent' (hothers l' hold' hbucket.symm)
        · rfl

/-! ## The law -/

theorem leaseInv_sent (cfg : SendConfig) (lines : Table Line) (clock : Int)
    (events : List (SendEvent ι)) : LeaseInv (sent cfg (SendState.start lines clock) events) :=
  run_invariant (fun _ event h => h.step event) (LeaseInv.start lines clock) events

theorem oneUnsent_iff (cfg : SendConfig) (lines : Table Line) (clock : Int)
    (events : List (SendEvent ι)) :
    (∀ pre post, events = pre ++ post → OneUnsent (sent cfg (SendState.start lines clock) pre)) ↔
      Guarded (sendStep cfg) RecordsAlone (SendState.start lines clock) events :=
  invariant_iff_guarded (f := sendStep cfg) (I := OneUnsent) (P := fun _ _ => True)
    (fun _ event h _ => step_oneUnsent h event) (fun _ hl => absurd hl List.not_mem_nil) (guarded_iff.mpr fun _ _ _ _ => trivial)

/-- The law holds exactly for the runs in which versions are recorded alone. -/
theorem fenced_iff (cfg : SendConfig) (lines : Table Line) (clock : Int)
    (events : List (SendEvent ι)) :
    Fenced cfg (SendState.start lines clock) events ↔
      Guarded (sendStep cfg) RecordsAlone (SendState.start lines clock) events := by
  constructor
  · exact fun h => (oneUnsent_iff cfg lines clock events).mp h.oneUnsent
  · intro h
    have hinv : ∀ pre : List (SendEvent ι), LeaseInv (sent cfg (SendState.start lines clock) pre) :=
      leaseInv_sent cfg lines clock
    have hstep : ∀ (pre : List (SendEvent ι)) event, sent cfg (SendState.start lines clock) (pre ++ [event]) =
        sendStep cfg (sent cfg (SendState.start lines clock) pre) event :=
      fun pre event => run_append _ _ _
    have hrun : ∀ (pre : List (SendEvent ι)) event mid, sent cfg (SendState.start lines clock) (pre ++ event :: mid) =
        run (sendStep cfg) (sendStep cfg (sent cfg (SendState.start lines clock) pre) event) mid :=
      fun pre event mid => run_append _ _ _
    have hlast : ∀ (pre : List (SendEvent ι)) event mid event',
        sent cfg (SendState.start lines clock) (pre ++ event :: (mid ++ [event'])) =
          sendStep cfg (sent cfg (SendState.start lines clock) (pre ++ event :: mid)) event' := by
      intro pre event mid event'
      rw [show pre ++ event :: (mid ++ [event']) = (pre ++ event :: mid) ++ [event'] by simp, hstep]
    refine ⟨?_, ?_, ?_, ?_, ?_, ?_, (oneUnsent_iff cfg lines clock events).mpr h, ?_⟩
    · intro pre event post _ id hmarked
      rw [hstep] at hmarked
      exact ((hinv pre).marked hmarked).1
    · intro pre post _ i j id hi hj
      exact (hinv pre).one_holder hi hj
    · rintro pre event mid event' post _ id ⟨l, hl, l', hl', hid, hid', _, hsent⟩ ⟨l₁, hl₁, _, _, hid₁,
        _, hnone, _⟩
      rw [hstep] at hl'
      rw [hrun] at hl₁
      obtain ⟨l₂, hl₂, hid₂, hstays⟩ := run_sentAt cfg mid _ l' hl'
      have heq := (run (sendStep cfg) _ mid).lists.eq_of_key_eq hl₂ hl₁
        (hid₂.trans (hid'.trans hid₁.symm))
      exact hstays hsent (by rw [heq]; exact hnone)
    · intro pre event mid event' post _ id hmarked hmarked'
      rw [hstep] at hmarked
      rw [hlast] at hmarked'
      obtain ⟨_, _, _, _, _, l, hl, hid, hstatus⟩ := (hinv pre).marked hmarked
      obtain ⟨_, l₁, hl₁, hid₁, hsending, _⟩ := (hinv (pre ++ event :: mid)).marked hmarked'
      rw [hrun] at hl₁
      rcases resent_or_forced cfg mid hl hstatus with
        ⟨l₂, hl₂, hid₂, hsent⟩ | ⟨mid₁, i, mid₂, list, rfl, hworker, hlist⟩
      · have heq := (run (sendStep cfg) _ mid).lists.eq_of_key_eq hl₂ hl₁
          (hid₂.trans (hid.trans hid₁.symm))
        rw [heq, hsending] at hsent
        cases hsent
      · exact ⟨mid₁, i, mid₂, list, rfl, by rw [hrun]; exact hworker, hlist.trans hid⟩
    · intro pre mid event post _ i lease hlease hcurrent hreclaimed hlease' hevent
      rw [hstep] at hreclaimed
      rw [hlast]
      have hpast : Past (sendStep cfg (sent cfg (SendState.start lines clock) pre) .reclaim).lists
          (sendStep cfg (sent cfg (SendState.start lines clock) pre) .reclaim).clock lease :=
        ((hinv pre).step_fence .reclaim hlease fun _ heq => by cases heq).resolve_left hreclaimed
      have hpast' := run_invariant (f := sendStep cfg)
        (I := fun s : SendState ι => Past s.lists s.clock lease)
        (fun _ event h => Past.step h event) hpast mid
      rw [← hrun] at hpast'
      exact (hinv _).unchanged_of_past hlease' hpast' hevent
    · intro pre event post _ l hl l' hl' hid hne
      rw [hstep] at hl' ⊢
      exact (hinv pre).locks hl hl' hid hne
    · intro pre mid post _ hlong l hl
      have happend : ∀ mid, sent cfg (SendState.start lines clock) (pre ++ mid) =
          run (sendStep cfg) (sent cfg (SendState.start lines clock) pre) mid :=
        fun mid => run_append _ _ _
      rw [happend] at hlong
      obtain ⟨mid₁, mid₂, hsplit, hrest⟩ := (hinv pre).released mid hlong hl
      exact ⟨mid₁, mid₂, hsplit, by rw [happend]; exact hrest⟩

/-! ## Two instances -/

def lunchBucket : Bucket := ⟨1, some 10, "catering", 1⟩

/-- One instance makes a list of a bucket and is mailing it when another gets to the bucket. -/
def overlap : List (SendEvent Nat) :=
  [.start 0 lunchBucket, .search 0, .assembled 0 [⟨1, 1, 5, 8, some 43200, some 8⟩], .record 0,
    .upload 0, .acquire 0,
    .start 1 lunchBucket, .search 1, .assembled 1 [⟨1, 1, 5, 8, some 43200, some 8⟩], .record 1]

/-- The second instance finds no version to try again, and makes a second one. -/
theorem two_versions_at_once : ¬∀ cfg lines clock (events : List (SendEvent Nat)),
    Fenced cfg (SendState.start lines clock) events := by
  intro h
  have hone := (h ⟨lunchConfig, fun b => b.listDate, fun _ => "list.pdf"⟩ Table.empty 0
    overlap).oneUnsent overlap [] (List.append_nil _).symm
  have htwo : ∃ l ∈ (sent ⟨lunchConfig, fun b => b.listDate, fun _ => "list.pdf"⟩
      (SendState.start Table.empty 0) overlap).lists.rows,
      ∃ l' ∈ (sent ⟨lunchConfig, fun b => b.listDate, fun _ => "list.pdf"⟩
        (SendState.start Table.empty 0) overlap).lists.rows,
      l.bucket = l'.bucket ∧ l.sentAt = none ∧ l'.sentAt = none ∧ l ≠ l' := by
    decide
  obtain ⟨l, hl, l', hl', hbucket, hsent, hsent', hne⟩ := htwo
  exact hne (hone l hl l' hl' hbucket hsent hsent')

end Prequest.DailyList
