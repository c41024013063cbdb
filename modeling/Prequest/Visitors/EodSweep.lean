import Prequest.Lib.Run
import Prequest.Lib.Table
import Prequest.Visitors.Status
import Prequest.Visitors.SweepWindow

/-!
# The end-of-day sweep of a building

Workers tick, and the one that inserts the lease of the day sweeps the building: it
reads the visitors whose time is over and transitions them one by one, while others
transition visitors as well.

* `sweepLaw_iff`: the law holds exactly for aligned ticks.
-/

namespace Prequest.Visitors

open Prequest.Lib

/-! ## Transitions -/

/-- A row of `visitors` of the building. -/
structure Visitor where
  id : Nat
  status : VisitorStatus
  expectedUntil : Option Int
  deriving DecidableEq, Repr

instance : Keyed Visitor Nat := ⟨Visitor.id⟩

inductive TransitionError where
  | notFound
  | invalidTransition (fromStatus toStatus : VisitorStatus)
  deriving DecidableEq, Repr

def setStatus (status : VisitorStatus) : Table.Assignment Visitor where
  apply v := { v with status }
  key_apply _ := rfl

/-- `transitionStatus`. The same status once more is no transition. -/
def transitionStatus (rows : Table Visitor) (id : Nat) (toStatus : VisitorStatus) :
    Except TransitionError (Table Visitor) :=
  match rows.get? id with
  | none => .error .notFound
  | some v =>
      if v.status = toStatus then .ok rows
      else if toStatus ∈ allowedTransitions v.status then
        .ok (rows.update (fun u => u.id == id) (setStatus toStatus))
      else .error (.invalidTransition v.status toStatus)

def attempt (rows : Table Visitor) (request : Nat × VisitorStatus) : Table Visitor :=
  match transitionStatus rows request.1 request.2 with
  | .ok rows' => rows'
  | .error _ => rows

/-! ## The sweep -/

/-- `status in ('expected', 'arrived', 'in_meeting')`. -/
def VisitorStatus.awaited (status : VisitorStatus) : Bool :=
  status ∈ [.expected, .arrived, .inMeeting]

/-- The condition of the candidates. -/
def Visitor.overdue (now : Int) (v : Visitor) : Bool :=
  v.status.awaited && v.expectedUntil.any fun t => decide (t < now)

def eodTarget (status : VisitorStatus) : VisitorStatus :=
  match status with
  | .expected => .noShow
  | _ => .checkedOut

/-- What happens around a sweep: which transitions fail, and what others do before each of them. -/
structure Around where
  fails : Nat → Bool
  others : Nat → List (Nat × VisitorStatus)

/-- The variables of the loop: the table, and the visitors whose transition failed. -/
structure SweepState where
  rows : Table Visitor
  failed : List Nat

def sweepCandidate (around : Around) (s : SweepState) (c : Visitor) : SweepState :=
  let rows := (around.others c.id).foldl attempt s.rows
  if around.fails c.id then ⟨rows, c.id :: s.failed⟩
  else
    match transitionStatus rows c.id (eodTarget c.status) with
    | .ok rows' => ⟨rows', s.failed⟩
    | .error _ => ⟨rows, c.id :: s.failed⟩

/-- The body of `runSweepForBuilding` under the lease. -/
def sweep (now : Int) (around : Around) (rows : Table Visitor) : SweepState :=
  (rows.rows.filter (·.overdue now)).foldl (sweepCandidate around) ⟨rows, []⟩

/-! ## The system -/

/-- The visitors of the building, the dates of its leases, and the local dates of its sweeps. -/
structure Building where
  visitors : Table Visitor
  leases : List Int
  swept : List Int

inductive Event where
  | tick (t : Tick) (around : Around)
  | other (id : Nat) (toStatus : VisitorStatus)
  | invite (v : Visitor)

def Tick.sweeps (off : Offsets) (b : Building) (t : Tick) : Bool :=
  t.inWindow off && !b.leases.contains t.leaseDate

def step (off : Offsets) (b : Building) : Event → Building
  | .tick t around =>
      if t.sweeps off b then
        { visitors := (sweep t.leasedAt around b.visitors).rows
          leases := t.leaseDate :: b.leases
          swept := t.date off :: b.swept }
      else b
  | .other id toStatus => { b with visitors := attempt b.visitors (id, toStatus) }
  | .invite v => { b with visitors := b.visitors.put v }

def Building.start (visitors : Table Visitor) : Building := ⟨visitors, [], []⟩

def Event.tick? : Event → Option Tick
  | .tick t _ => some t
  | _ => none

/-- The ticks of a run are ones that may occur, in the order in which they get to the building. -/
def Legal (T : Tick → Prop) (events : List Event) : Prop :=
  (∀ t ∈ events.filterMap Event.tick?, T t) ∧
    (events.filterMap Event.tick?).Pairwise fun a b => a.leasedAt ≤ b.leasedAt

/-! ## The law -/

def SweptOnce (off : Offsets) (visitors : Table Visitor) (events : List Event) : Prop :=
  ∀ t ∈ events.filterMap Event.tick?, t.inWindow off = true →
    (run (step off) (Building.start visitors) events).swept.count (t.date off) = 1

/-- After a sweep a visitor who was overdue has a terminal status, or its own transition failed;
and then every later sweep finds the visitor overdue again, or in a terminal status. -/
def Settled (off : Offsets) (visitors : Table Visitor) (events : List Event) : Prop :=
  ∀ pre t around post, events = pre ++ .tick t around :: post →
    t.sweeps off (run (step off) (Building.start visitors) pre) = true →
    ∀ v ∈ (run (step off) (Building.start visitors) pre).visitors.rows,
      v.overdue t.leasedAt = true →
      (∃ v' ∈ (run (step off) (Building.start visitors) (pre ++ [.tick t around])).visitors.rows,
        v'.id = v.id ∧ (v'.status.terminal = true ∨
          v.id ∈ (sweep t.leasedAt around
            (run (step off) (Building.start visitors) pre).visitors).failed)) ∧
      ∀ mid t₂ around₂ post₂, post = mid ++ .tick t₂ around₂ :: post₂ →
        t₂.sweeps off (run (step off) (Building.start visitors)
          (pre ++ .tick t around :: mid)) = true →
        ∃ v' ∈ (run (step off) (Building.start visitors)
            (pre ++ .tick t around :: mid)).visitors.rows,
          v'.id = v.id ∧ (v'.status.terminal = true ∨ v'.overdue t₂.leasedAt = true)

/-- The law of the sweep, over all runs with ticks that may occur. -/
def SweepLaw (off : Offsets) (T : Tick → Prop) : Prop :=
  ∀ visitors events, Legal T events → SweptOnce off visitors events ∧ Settled off visitors events

/-! ## Statuses go forward -/

/-- What a visitor may become: the same one, with a status that follows. -/
structure Visitor.Follows (v v' : Visitor) : Prop where
  id : v'.id = v.id
  expectedUntil : v'.expectedUntil = v.expectedUntil
  terminal : v.status.terminal = true → v'.status.terminal = true
  awaited : v.status.awaited = true → v'.status.awaited = true ∨ v'.status.terminal = true

theorem Visitor.Follows.refl (v : Visitor) : v.Follows v := ⟨rfl, rfl, fun h => h, .inl⟩

theorem Visitor.Follows.trans {v v' v'' : Visitor} (h : v.Follows v') (h' : v'.Follows v'') :
    v.Follows v'' where
  id := h'.id.trans h.id
  expectedUntil := h'.expectedUntil.trans h.expectedUntil
  terminal ht := h'.terminal (h.terminal ht)
  awaited ha := by
    rcases h.awaited ha with hawaited | hterminal
    · exact h'.awaited hawaited
    · exact .inr (h'.terminal hterminal)

theorem follows_of_allowed {v : Visitor} {toStatus : VisitorStatus}
    (h : toStatus ∈ allowedTransitions v.status) : v.Follows { v with status := toStatus } := by
  refine ⟨rfl, rfl, ?_, ?_⟩
  · intro hterminal
    rw [allowedTransitions_eq_nil_iff.mpr hterminal] at h
    cases h
  · intro hawaited
    revert h
    show toStatus ∈ allowedTransitions v.status →
      toStatus.awaited = true ∨ toStatus.terminal = true
    revert hawaited
    cases v.status <;> cases toStatus <;> decide

def RowsFollow (rows rows' : Table Visitor) : Prop :=
  ∀ v ∈ rows.rows, ∃ v' ∈ rows'.rows, v.Follows v'

theorem RowsFollow.refl (rows : Table Visitor) : RowsFollow rows rows :=
  fun v hv => ⟨v, hv, Visitor.Follows.refl v⟩

theorem RowsFollow.trans {rows rows' rows'' : Table Visitor} (h : RowsFollow rows rows')
    (h' : RowsFollow rows' rows'') : RowsFollow rows rows'' := by
  intro v hv
  obtain ⟨v', hv', hfollows⟩ := h v hv
  obtain ⟨v'', hv'', hfollows'⟩ := h' v' hv'
  exact ⟨v'', hv'', hfollows.trans hfollows'⟩

theorem transitionStatus_ok {rows rows' : Table Visitor} {id : Nat} {toStatus : VisitorStatus}
    (h : transitionStatus rows id toStatus = .ok rows') :
    RowsFollow rows rows' ∧ ∃ v' ∈ rows'.rows, v'.id = id ∧ v'.status = toStatus := by
  unfold transitionStatus at h
  split at h
  · cases h
  · rename_i v hget
    obtain ⟨hv, hid⟩ := Table.get?_eq_some.mp hget
    split at h
    · rename_i hsame
      cases h
      exact ⟨RowsFollow.refl rows, v, hv, hid, hsame⟩
    · split at h
      · rename_i hallowed
        cases h
        constructor
        · intro u hu
          by_cases hu' : u.id = id
          · obtain rfl : u = v := rows.eq_of_key_eq hu hv (hu'.trans hid.symm)
            refine ⟨_, Table.mem_update_iff.mpr ⟨u, hu, .inl ⟨by simp [hu'], rfl⟩⟩, ?_⟩
            exact follows_of_allowed hallowed
          · exact ⟨u, Table.mem_update_iff.mpr ⟨u, hu, .inr ⟨by simp [hu'], rfl⟩⟩,
              Visitor.Follows.refl u⟩
        · refine ⟨_, Table.mem_update_iff.mpr ⟨v, hv, .inl ⟨?_, rfl⟩⟩, hid, rfl⟩
          exact beq_iff_eq.mpr hid
      · cases h

theorem attempt_follows (rows : Table Visitor) (request : Nat × VisitorStatus) :
    RowsFollow rows (attempt rows request) := by
  unfold attempt
  split
  · rename_i hok
    exact (transitionStatus_ok hok).1
  · exact RowsFollow.refl rows

theorem attempts_follow (requests : List (Nat × VisitorStatus)) (rows : Table Visitor) :
    RowsFollow rows (requests.foldl attempt rows) := by
  induction requests generalizing rows with
  | nil => exact RowsFollow.refl rows
  | cons request requests ih => exact (attempt_follows rows request).trans (ih _)

/-! ## One sweep -/

theorem eodTarget_terminal (status : VisitorStatus) : (eodTarget status).terminal = true := by
  cases status <;> decide

section

variable (around : Around) (s : SweepState) (c : Visitor)

theorem sweepCandidate_follows : RowsFollow s.rows (sweepCandidate around s c).rows := by
  have hothers := attempts_follow (around.others c.id) s.rows
  unfold sweepCandidate
  dsimp only
  split
  · exact hothers
  · split
    · rename_i hok
      exact hothers.trans (transitionStatus_ok hok).1
    · exact hothers

theorem sweepCandidate_failed : s.failed ⊆ (sweepCandidate around s c).failed := by
  unfold sweepCandidate
  dsimp only
  split
  · exact List.subset_cons_self _ _
  · split
    · exact List.Subset.refl _
    · exact List.subset_cons_self _ _

theorem sweepCandidate_done :
    (∃ v ∈ (sweepCandidate around s c).rows.rows, v.id = c.id ∧ v.status.terminal = true) ∨
      c.id ∈ (sweepCandidate around s c).failed := by
  unfold sweepCandidate
  dsimp only
  split
  · exact .inr List.mem_cons_self
  · split
    · rename_i hok
      obtain ⟨v, hv, hid, hstatus⟩ := (transitionStatus_ok hok).2
      exact .inl ⟨v, hv, hid, by rw [hstatus]; exact eodTarget_terminal c.status⟩
    · exact .inr List.mem_cons_self

end

theorem foldl_sweepCandidate_follows (around : Around) (cs : List Visitor) (s : SweepState) :
    RowsFollow s.rows (cs.foldl (sweepCandidate around) s).rows := by
  induction cs generalizing s with
  | nil => exact RowsFollow.refl s.rows
  | cons c cs ih => exact (sweepCandidate_follows around s c).trans (ih _)

theorem foldl_sweepCandidate_failed (around : Around) (cs : List Visitor) (s : SweepState) :
    s.failed ⊆ (cs.foldl (sweepCandidate around) s).failed := by
  induction cs generalizing s with
  | nil => exact List.Subset.refl _
  | cons c cs ih => exact List.Subset.trans (sweepCandidate_failed around s c) (ih _)

theorem foldl_sweepCandidate_done (around : Around) {cs : List Visitor} {c : Visitor} (hc : c ∈ cs)
    (s : SweepState) :
    (∃ v ∈ (cs.foldl (sweepCandidate around) s).rows.rows,
      v.id = c.id ∧ v.status.terminal = true) ∨
      c.id ∈ (cs.foldl (sweepCandidate around) s).failed := by
  obtain ⟨pre, post, rfl⟩ := List.append_of_mem hc
  rw [List.foldl_append, List.foldl_cons]
  rcases sweepCandidate_done around (pre.foldl (sweepCandidate around) s) c with
    ⟨v, hv, hid, hterminal⟩ | hfailed
  · left
    obtain ⟨v', hv', hfollows⟩ := foldl_sweepCandidate_follows around post _ v hv
    exact ⟨v', hv', hfollows.id.trans hid, hfollows.terminal hterminal⟩
  · exact .inr (foldl_sweepCandidate_failed around post _ hfailed)

/-! ## Runs -/

theorem step_follows (off : Offsets) (b : Building) (event : Event) :
    RowsFollow b.visitors (step off b event).visitors := by
  cases event with
  | tick t around =>
    dsimp only [step]
    split
    · show RowsFollow b.visitors (sweep t.leasedAt around b.visitors).rows
      exact foldl_sweepCandidate_follows around _ ⟨b.visitors, []⟩
    · exact RowsFollow.refl b.visitors
  | other id toStatus => exact attempt_follows b.visitors (id, toStatus)
  | invite v =>
    intro u hu
    refine ⟨u, ?_, Visitor.Follows.refl u⟩
    show u ∈ (b.visitors.put v).rows
    cases hget : b.visitors.get? (key v) with
    | none => exact (Table.mem_put hget).mpr (.inl hu)
    | some w => rwa [Table.put_of_present hget]

theorem run_follows (off : Offsets) (events : List Event) (b : Building) :
    RowsFollow b.visitors (run (step off) b events).visitors :=
  run_rel (R := fun b b' => RowsFollow b.visitors b'.visitors)
    (fun b => RowsFollow.refl b.visitors) (fun _ _ _ => RowsFollow.trans) (step_follows off) b events

theorem overdue_later {v v' : Visitor} (h : v.Follows v') {now now' : Int} (hle : now ≤ now')
    (hoverdue : v.overdue now = true) :
    v'.status.terminal = true ∨ v'.overdue now' = true := by
  unfold Visitor.overdue at hoverdue ⊢
  rw [Bool.and_eq_true] at hoverdue
  rcases h.awaited hoverdue.1 with hawaited | hterminal
  · right
    rw [hawaited, Bool.true_and, h.expectedUntil]
    cases huntil : v.expectedUntil with
    | none =>
      rw [huntil] at hoverdue
      cases hoverdue.2
    | some u =>
      rw [huntil] at hoverdue
      have hlt : u < now := of_decide_eq_true hoverdue.2
      exact decide_eq_true (by omega)
  · exact .inl hterminal

variable {off : Offsets} {T : Tick → Prop} {events : List Event}

theorem settled_of_legal (visitors : Table Visitor) (hlegal : Legal T events) :
    Settled off visitors events := by
  intro pre t around post hsplit hsweeps v hv hoverdue
  constructor
  · have hcandidate : v ∈ (run (step off) (Building.start visitors) pre).visitors.rows.filter
        (·.overdue t.leasedAt) := List.mem_filter.mpr ⟨hv, hoverdue⟩
    have hstep : (run (step off) (Building.start visitors) (pre ++ [.tick t around])).visitors =
        (sweep t.leasedAt around (run (step off) (Building.start visitors) pre).visitors).rows := by
      rw [run_append, run_cons, run_nil]
      exact congrArg Building.visitors (if_pos hsweeps)
    rw [hstep]
    rcases foldl_sweepCandidate_done around hcandidate ⟨_, []⟩ with ⟨v', hv', hid, hterminal⟩ | hfailed
    · exact ⟨v', hv', hid, .inl hterminal⟩
    · obtain ⟨v', hv', hfollows⟩ := foldl_sweepCandidate_follows around
        ((run (step off) (Building.start visitors) pre).visitors.rows.filter (·.overdue t.leasedAt))
        ⟨_, []⟩ v hv
      exact ⟨v', hv', hfollows.id, .inr hfailed⟩
  · intro mid t₂ around₂ post₂ hpost _
    have hle : t.leasedAt ≤ t₂.leasedAt := by
      have hsorted := hlegal.2
      rw [hsplit, hpost, List.filterMap_append,
        List.filterMap_cons_some (f := Event.tick?) (b := t) rfl] at hsorted
      refine (List.pairwise_cons.mp (List.pairwise_append.mp hsorted).2.1).1 t₂ ?_
      rw [List.filterMap_append, List.filterMap_cons_some (f := Event.tick?) (b := t₂) rfl]
      exact List.mem_append_right _ List.mem_cons_self
    rw [run_append]
    obtain ⟨v', hv', hfollows⟩ := run_follows off (.tick t around :: mid) _ v hv
    exact ⟨v', hv', hfollows.id, overdue_later hfollows hle hoverdue⟩

/-! ## The leases -/

structure Leased (off : Offsets) (ticks : List Tick) (b : Building) : Prop where
  leases : ∀ k, k ∈ b.leases ↔ ∃ t ∈ ticks, t.inWindow off = true ∧ t.leaseDate = k
  swept : ∀ d, d ∈ b.swept ↔ ∃ t ∈ ticks, t.inWindow off = true ∧ t.date off = d
  nodup : b.swept.Nodup

section

variable {α : Type} {f : Tick → α} {xs : List α} {ticks : List Tick} {t : Tick}
  (h : ∀ x, x ∈ xs ↔ ∃ u ∈ ticks, u.inWindow off = true ∧ f u = x)

include h in
theorem mem_cons_iff_tick (hwindow : t.inWindow off = true) (x : α) :
    x ∈ f t :: xs ↔ ∃ u ∈ ticks ++ [t], u.inWindow off = true ∧ f u = x := by
  simp only [List.mem_cons, h, List.mem_append, List.not_mem_nil, or_false]
  constructor
  · rintro (rfl | ⟨u, hu, hrest⟩)
    · exact ⟨t, .inr rfl, hwindow, rfl⟩
    · exact ⟨u, .inl hu, hrest⟩
  · rintro ⟨u, hu | rfl, huw, rfl⟩
    · exact .inr ⟨u, hu, huw, rfl⟩
    · exact .inl rfl

include h in
theorem mem_iff_tick
    (htaken : t.inWindow off = true → ∃ u ∈ ticks, u.inWindow off = true ∧ f u = f t) (x : α) :
    x ∈ xs ↔ ∃ u ∈ ticks ++ [t], u.inWindow off = true ∧ f u = x := by
  rw [h]
  constructor
  · rintro ⟨u, hu, hrest⟩
    exact ⟨u, List.mem_append_left _ hu, hrest⟩
  · rintro ⟨u, hu, huw, rfl⟩
    rcases List.mem_append.mp hu with hu | hu
    · exact ⟨u, hu, huw, rfl⟩
    · obtain rfl := List.mem_singleton.mp hu
      exact htaken huw

end

theorem step_leased (haligned : Aligned off T) {ticks : List Tick} (hT : ∀ t ∈ ticks, T t)
    {b : Building} (h : Leased off ticks b) {t : Tick} (ht : T t) (around : Around) :
    Leased off (ticks ++ [t]) (step off b (.tick t around)) := by
  dsimp only [step]
  split
  · rename_i hsweeps
    simp only [Tick.sweeps, Bool.and_eq_true, Bool.not_eq_true', List.contains_eq_mem,
      decide_eq_false_iff_not] at hsweeps
    obtain ⟨hwindow, hfresh⟩ := hsweeps
    refine ⟨mem_cons_iff_tick h.leases hwindow, mem_cons_iff_tick h.swept hwindow, ?_⟩
    refine List.nodup_cons.mpr ⟨?_, h.nodup⟩
    intro hmem
    obtain ⟨u, hu, huw, hdate⟩ := (h.swept _).mp hmem
    exact hfresh ((h.leases _).mpr ⟨u, hu, huw, (haligned u t (hT u hu) ht huw hwindow).mpr hdate⟩)
  · rename_i hsweeps
    -- A tick outside of the window adds nothing, and one whose lease is taken adds no date.
    have htaken : t.inWindow off = true → ∃ u ∈ ticks, u.inWindow off = true ∧
        u.leaseDate = t.leaseDate ∧ u.date off = t.date off := by
      intro hwindow
      simp only [Tick.sweeps, hwindow, Bool.true_and, Bool.not_eq_true', Bool.not_eq_false,
        List.contains_eq_mem, decide_eq_true_eq] at hsweeps
      obtain ⟨u, hu, huw, hlease⟩ := (h.leases _).mp hsweeps
      exact ⟨u, hu, huw, hlease, (haligned u t (hT u hu) ht huw hwindow).mp hlease⟩
    refine ⟨mem_iff_tick h.leases fun hwindow => ?_, mem_iff_tick h.swept fun hwindow => ?_,
      h.nodup⟩
    · obtain ⟨u, hu, huw, hlease, _⟩ := htaken hwindow
      exact ⟨u, hu, huw, hlease⟩
    · obtain ⟨u, hu, huw, _, hdate⟩ := htaken hwindow
      exact ⟨u, hu, huw, hdate⟩

theorem run_leased (haligned : Aligned off T) (events : List Event) {ticks : List Tick}
    (hT : ∀ t ∈ ticks ++ events.filterMap Event.tick?, T t) {b : Building}
    (h : Leased off ticks b) :
    Leased off (ticks ++ events.filterMap Event.tick?) (run (step off) b events) := by
  induction events generalizing ticks b with
  | nil =>
    rw [List.filterMap_nil, List.append_nil]
    exact h
  | cons event events ih =>
    cases event with
    | tick t around =>
      rw [List.filterMap_cons_some (f := Event.tick?) (b := t) rfl, List.append_cons] at hT ⊢
      refine ih hT (step_leased haligned ?_ h ?_ around)
      · intro u hu
        exact hT u (List.mem_append_left _ (List.mem_append_left _ hu))
      · exact hT t (List.mem_append_left _ (List.mem_append_right _ List.mem_cons_self))
    | other id toStatus =>
      rw [List.filterMap_cons_none (f := Event.tick?) rfl] at hT ⊢
      exact ih hT ⟨h.leases, h.swept, h.nodup⟩
    | invite v =>
      rw [List.filterMap_cons_none (f := Event.tick?) rfl] at hT ⊢
      exact ih hT ⟨h.leases, h.swept, h.nodup⟩

theorem sweptOnce_of_aligned (haligned : Aligned off T) (visitors : Table Visitor)
    (hlegal : Legal T events) : SweptOnce off visitors events := by
  intro t ht hwindow
  have hstart : Leased off [] (Building.start visitors) :=
    ⟨by simp [Building.start], by simp [Building.start], List.nodup_nil⟩
  have h := run_leased haligned events (by simpa using hlegal.1) hstart
  rw [List.nil_append] at h
  exact List.count_eq_one_of_mem h.nodup ((h.swept _).mpr ⟨t, ht, hwindow, rfl⟩)

/-! ## Ticks that are not aligned -/

def quiet : Around := ⟨fun _ => false, fun _ => []⟩

theorem swept_two (off : Offsets) {a b : Tick} (ha : a.inWindow off = true)
    (hb : b.inWindow off = true) :
    (run (step off) (Building.start Table.empty) [.tick a quiet, .tick b quiet]).swept =
      if a.leaseDate = b.leaseDate then [a.date off] else [b.date off, a.date off] := by
  have hfirst : step off (Building.start Table.empty) (.tick a quiet) =
      ⟨Table.empty, [a.leaseDate], [a.date off]⟩ := by
    refine (if_pos ?_).trans rfl
    simp [Tick.sweeps, ha, Building.start]
  rw [run_cons, run_cons, run_nil, hfirst]
  dsimp only [step]
  by_cases hlease : a.leaseDate = b.leaseDate
  · rw [if_pos hlease, if_neg (by simp [Tick.sweeps, hlease])]
  · rw [if_neg hlease, if_pos (by simp [Tick.sweeps, hb, Ne.symm hlease])]

theorem aligned_of_law (h : SweepLaw off T) : Aligned off T := by
  have hordered : ∀ a b, T a → T b → a.inWindow off = true → b.inWindow off = true →
      a.leasedAt ≤ b.leasedAt → (a.leaseDate = b.leaseDate ↔ a.date off = b.date off) := by
    intro a b hTa hTb ha hb hle
    have hlegal : Legal T [.tick a quiet, .tick b quiet] := by
      refine ⟨?_, ?_⟩
      · intro t ht
        rcases List.mem_cons.mp ht with rfl | ht
        · exact hTa
        · rw [List.mem_singleton.mp ht]
          exact hTb
      · refine List.pairwise_cons.mpr ⟨?_, List.pairwise_singleton _ _⟩
        intro t ht
        rw [List.mem_singleton.mp ht]
        exact hle
    have honce := (h Table.empty _ hlegal).1 b (List.mem_cons_of_mem _ List.mem_cons_self) hb
    rw [swept_two off ha hb] at honce
    by_cases hlease : a.leaseDate = b.leaseDate
    · rw [if_pos hlease] at honce
      refine iff_of_true hlease ?_
      by_contra hdate
      rw [List.count_eq_zero_of_not_mem (by simpa using Ne.symm hdate)] at honce
      cases honce
    · rw [if_neg hlease] at honce
      refine iff_of_false hlease ?_
      intro hdate
      rw [hdate] at honce
      simp at honce
  intro a b hTa hTb ha hb
  rcases le_total a.leasedAt b.leasedAt with hle | hle
  · exact hordered a b hTa hTb ha hb hle
  · rw [eq_comm, hordered b a hTb hTa hb ha hle, eq_comm]

/-- For every history of offsets and all ticks that may occur: the building is swept once a local
date, and its visitors are settled, exactly when two ticks share a lease as they share a date. -/
theorem sweepLaw_iff (off : Offsets) (T : Tick → Prop) : SweepLaw off T ↔ Aligned off T := by
  constructor
  · exact aligned_of_law
  · intro haligned visitors events hlegal
    exact ⟨sweptOnce_of_aligned haligned visitors hlegal, settled_of_legal visitors hlegal⟩

/-! ## The night when the clocks change -/

/-- Chicago in March 2026: the clocks change on the 8th at 08:00 UTC. -/
def chicago : Offsets := fun t => if t < 1772956800 then -21600 else -18000

/-- Saturday's and Sunday's windows open on one date in UTC, and Sunday is not swept. -/
theorem sunday_is_not_swept : ¬∀ off T, SweepLaw off T := by
  intro h
  have honce := (h chicago Tick.Prompt Table.empty
    [.tick ⟨1772928000, 1772928000⟩ quiet, .tick ⟨1773010800, 1773010800⟩ quiet]
    ⟨by simp [Event.tick?, Tick.Prompt], by simp [Event.tick?]⟩).1
    ⟨1773010800, 1773010800⟩ (by simp [Event.tick?]) (by decide)
  revert honce
  decide

end Prequest.Visitors
