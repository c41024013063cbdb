import Mathlib.Data.List.Induction
import Prequest.Sla.TickRace

/-!
# Runs of overlapping ticks

What every tick has read is related to what the database has recorded: a firing
that is about to insert the crossing of an escalation has seen its reassignment
committed, or has read a ticket that its target has already.

* `escalatesOnce_of_run`: the laws for every run that meets the conditions.
-/

namespace Prequest.Sla

open Prequest.Lib Prequest.Command

/-! ## What no action undoes -/

def SlaTimerRow.SameTimer (t' t : SlaTimerRow) : Prop :=
  t' = { t with breached := t'.breached, breachedAt := t'.breachedAt }

section

variable {t' t : SlaTimerRow} (h : t'.SameTimer t)

include h

theorem SlaTimerRow.SameTimer.id_eq : t'.id = t.id := by
  unfold SlaTimerRow.SameTimer at h
  rw [h]

theorem SlaTimerRow.SameTimer.ticketId_eq : t'.ticketId = t.ticketId := by
  unfold SlaTimerRow.SameTimer at h
  rw [h]

theorem SlaTimerRow.SameTimer.slaPolicyId_eq : t'.slaPolicyId = t.slaPolicyId := by
  unfold SlaTimerRow.SameTimer at h
  rw [h]

theorem SlaTimerRow.SameTimer.timerType_eq : t'.timerType = t.timerType := by
  unfold SlaTimerRow.SameTimer at h
  rw [h]

end

/-- What no action undoes: a timer may only be marked, tickets keep their requesters, and
crossings and commands stay recorded. -/
structure Persists (db db' : SlaDb) : Prop where
  timers : ∀ t' ∈ db'.timers.rows, ∃ t ∈ db.timers.rows, t'.SameTimer t
  count : db'.timers.rows.length = db.timers.rows.length
  policies : db'.policies = db.policies
  requesters : ∀ k, (db'.entities.get? k).map EntityRow.requesterPersonId =
    (db.entities.get? k).map EntityRow.requesterPersonId
  commands : ∀ k op, db.commandOperations.get? k = some op → db'.commandOperations.get? k = some op
  succeeded : AllSucceeded db → AllSucceeded db'

theorem Persists.refl (db : SlaDb) : Persists db db :=
  ⟨fun t ht => ⟨t, ht, rfl⟩, rfl, rfl, fun _ => rfl, fun _ _ h => h, fun h => h⟩

theorem Persists.trans {a b c : SlaDb} (h : Persists a b) (h' : Persists b c) : Persists a c where
  timers := by
    intro t'' ht''
    obtain ⟨t', ht', hsame'⟩ := h'.timers t'' ht''
    obtain ⟨t, ht, hsame⟩ := h.timers t' ht'
    refine ⟨t, ht, ?_⟩
    unfold SlaTimerRow.SameTimer at hsame hsame' ⊢
    rw [hsame] at hsame'
    exact hsame'
  count := h'.count.trans h.count
  policies := h'.policies.trans h.policies
  requesters := fun k => (h'.requesters k).trans (h.requesters k)
  commands := fun k op hop => h'.commands k op (h.commands k op hop)
  succeeded := fun ha => h'.succeeded (h.succeeded ha)

theorem Kept.persists {db db' : SlaDb} (h : Kept db db') : Persists db db' where
  timers := by
    intro t ht
    rw [h.timers] at ht
    exact ⟨t, ht, rfl⟩
  count := by rw [h.timers]
  policies := h.policies
  requesters := h.requesters
  commands := h.commands
  succeeded := h.succeeded

theorem markSlaBreachedBatch_persists (db : SlaDb) (timerIds : List Nat) (now : Int) :
    Persists db (markSlaBreachedBatch db timerIds now) where
  timers := by
    intro t' ht'
    obtain ⟨t, ht, rfl⟩ := Table.mem_update.mp ht'
    refine ⟨t, ht, ?_⟩
    unfold Table.updated
    split
    · rfl
    · rfl
  count := by simp [markSlaBreachedBatch, Table.update]
  policies := rfl
  requesters := fun _ => rfl
  commands := fun _ _ h => h
  succeeded := fun h => h

section

variable {dir : Directory}

section

variable (dir : Directory)

theorem tickStep_persists (db : SlaDb) (s : TickState) : Persists db (tickStep dir db s).1 := by
  unfold tickStep
  split
  case h_2 => exact markSlaBreachedBatch_persists db _ _
  case h_9 =>
    split
    · exact .refl db
    · rename_i hfire
      exact (fireStep_kept hfire).persists
  all_goals exact .refl db

theorem step_db (w : World) (a : Action) :
    (step dir w a).db = w.db ∨ ∃ i, (a = .advance i ∨ a = .fail i true ∨ a = .crash i true) ∧
      (step dir w a).db = (tickStep dir w.db (w.ticks i)).1 := by
  cases a with
  | start i now =>
    left
    simp only [step]
    split
    · rfl
    · rfl
  | advance i => exact .inr ⟨i, .inl rfl, rfl⟩
  | fail i applied =>
    cases applied with
    | false => exact .inl rfl
    | true => exact .inr ⟨i, .inr (.inl rfl), rfl⟩
  | crash i applied =>
    cases applied with
    | false => exact .inl rfl
    | true => exact .inr ⟨i, .inr (.inr rfl), rfl⟩

theorem step_persists (w : World) (a : Action) : Persists w.db (step dir w a).db := by
  rcases step_db dir w a with hsame | ⟨i, _, hstep⟩
  · rw [hsame]
    exact .refl _
  · rw [hstep]
    exact tickStep_persists dir _ _

theorem run_persists (w : World) (as : List Action) : Persists w.db (run (step dir) w as).db :=
  run_rel (R := fun v v' : World => Persists v.db v'.db) (fun v => Persists.refl v.db)
    (fun _ _ _ => Persists.trans) (fun v a => step_persists dir v a) w as

end

end

/-! ## What a tick knows -/

section

variable (dir : Directory) (db₀ : SlaDb)

section

variable (timer : SlaTimerRow)

def Known : Prop := ∃ t ∈ db₀.timers.rows, timer.SameTimer t

def Applies (threshold : EscalationThreshold) : Prop :=
  Known db₀ timer ∧ threshold ∈ db₀.thresholdsOf timer ∧
    threshold.timerType.covers timer.timerType = true

def targetOf (threshold : EscalationThreshold) : Option Assignee :=
  resolveTarget dir db₀ threshold timer.ticketId

end

/-- What a firing knows at each of its calls: the tickets it has read, its target, and from the
reassignment on that it is committed. -/
def PcOk (read : SlaTimerRow → EntityRow → Prop) (db : SlaDb) (timer : SlaTimerRow)
    (threshold : EscalationThreshold) : FirePc → Prop
  | .load | .announce _ _ | .done => True
  | .resolve ticket => read timer ticket
  | .skip _ => threshold.action = .escalate → targetOf dir db₀ timer threshold = none
  | .probe ticket resolved | .plan ticket resolved =>
      read timer ticket ∧ targetOf dir db₀ timer threshold = some resolved ∧
        threshold.action = .escalate
  | .assign ticket resolved payload =>
      read timer ticket ∧ targetOf dir db₀ timer threshold = some resolved ∧
        payload.assigns dir resolved
  | .watch ticket resolved _ =>
      read timer ticket ∧ targetOf dir db₀ timer threshold = some resolved ∧
        Durable dir db timer threshold resolved
  | .cross ticket resolved _ =>
      read timer ticket ∧ targetOf dir db₀ timer threshold = some resolved ∧
        (threshold.action = .escalate →
          Durable dir db timer threshold resolved ∨ ticket.hasAssignee dir resolved)

def WorkOk (work : List (SlaTimerRow × List EscalationThreshold)) : Prop :=
  ∀ w ∈ work, ∀ threshold ∈ w.2, Applies db₀ w.1 threshold

def TickOk (read : SlaTimerRow → EntityRow → Prop) (db : SlaDb) : TickState → Prop
  | .idle | .marking _ _ | .selecting _ | .ended => True
  | .loadingPolicies _ timers => ∀ t ∈ timers, Known db₀ t
  | .loadingCrossings _ timers =>
      ∀ t ∈ timers, Known db₀ t.1 ∧ ∀ threshold ∈ t.2, threshold ∈ db₀.thresholdsOf t.1
  | .pass work => WorkOk db₀ work
  | .fire timer threshold pc thresholds work =>
      WorkOk db₀ ((timer, threshold :: thresholds) :: work) ∧
        PcOk dir db₀ read db timer threshold pc

def CommandsOk (db : SlaDb) : Prop :=
  ∀ timer threshold op, Applies db₀ timer threshold →
    db.commandOperations.get? (escalationKey timer threshold) = some op →
      ∀ resolved, targetOf dir db₀ timer threshold = some resolved →
        Durable dir db timer threshold resolved

end

variable {ticket : EntityRow} {s : TickState}

section

variable {dir : Directory} {db₀ db db' : SlaDb} {read read' : SlaTimerRow → EntityRow → Prop}
  {timer : SlaTimerRow} {threshold : EscalationThreshold}

variable {resolved : Assignee} {t₁ t₂ : EscalationThreshold} {timer₁ timer₂ : SlaTimerRow}
  {reason : EscalationReason}

theorem Durable.persists (h : Durable dir db timer threshold resolved)
    (hdb : Persists db db') : Durable dir db' timer threshold resolved := by
  obtain ⟨payload, hop, hassigns⟩ := h
  exact ⟨payload, hdb.commands _ _ hop, hassigns⟩

theorem PcOk.persists {pc : FirePc} (h : PcOk dir db₀ read db timer threshold pc)
    (hdb : Persists db db') (hread : ∀ ticket, read timer ticket → read' timer ticket) :
    PcOk dir db₀ read' db' timer threshold pc := by
  cases pc with
  | load => trivial
  | resolve ticket => exact hread ticket h
  | skip ticket => exact h
  | probe ticket resolved => exact ⟨hread ticket h.1, h.2⟩
  | plan ticket resolved => exact ⟨hread ticket h.1, h.2⟩
  | assign ticket resolved payload => exact ⟨hread ticket h.1, h.2⟩
  | watch ticket resolved payload => exact ⟨hread ticket h.1, h.2.1, h.2.2.persists hdb⟩
  | cross ticket resolved reassigned =>
    refine ⟨hread ticket h.1, h.2.1, ?_⟩
    intro hescalate
    exact (h.2.2 hescalate).imp_left fun hdurable => hdurable.persists hdb
  | announce crossing reassigned => trivial
  | done => trivial

theorem TickOk.persists (h : TickOk dir db₀ read db s) (hdb : Persists db db')
    (hread : ∀ timer ticket, read timer ticket → read' timer ticket) :
    TickOk dir db₀ read' db' s := by
  cases s with
  | fire timer threshold pc thresholds work => exact ⟨h.1, h.2.persists hdb (hread timer)⟩
  | _ => exact h

theorem assigns_of_assignmentFor {payload : AssignmentPayload}
    (h : assignmentFor dir ticket resolved reason = .ok (some payload)) :
    payload.assigns dir resolved := by
  unfold assignmentFor at h
  cases resolved with
  | team teamId =>
    simp only at h
    split at h
    · cases h
    · cases h
      rfl
  | person personId =>
    simp only at h
    split at h
    · cases h
    · rename_i userId huser
      split at h
      · cases h
      · cases h
        exact ⟨userId, huser, rfl⟩
    · cases h

theorem hasAssignee_of_assignmentFor
    (haccount : ∀ person, resolved = .person person → dir.usersOfPerson person ≠ [])
    (h : assignmentFor dir ticket resolved reason = .ok none) :
    ticket.hasAssignee dir resolved := by
  unfold assignmentFor at h
  cases resolved with
  | team teamId =>
    simp only at h
    split at h
    · rename_i hassigned
      exact hassigned
    · cases h
  | person personId =>
    simp only at h
    split at h
    · rename_i huser
      exact absurd huser (haccount personId rfl)
    · rename_i userId huser
      split at h
      · rename_i hassigned
        exact ⟨userId, huser, hassigned⟩
      · cases h
    · cases h

theorem thresholdsOf_of_sameTimer {t' t : SlaTimerRow} (h : t'.SameTimer t) :
    db₀.thresholdsOf t' = db₀.thresholdsOf t := by
  unfold SlaDb.thresholdsOf
  rw [h.slaPolicyId_eq]

theorem eq_of_escalationKey (hclean : CleanPolicies dir db₀) (h₁ : Applies db₀ timer₁ t₁)
    (h₂ : Applies db₀ timer₂ t₂) (hkey : crossingKey timer₁ t₁ = crossingKey timer₂ t₂) :
    t₁ = t₂ ∧ timer₁.ticketId = timer₂.ticketId := by
  obtain ⟨⟨row₁, hrow₁, hsame₁⟩, hmem₁, hcovers₁⟩ := h₁
  obtain ⟨⟨row₂, hrow₂, hsame₂⟩, hmem₂, hcovers₂⟩ := h₂
  simp only [crossingKey, CrossingKey.mk.injEq] at hkey
  have hrow : row₁ = row₂ := by
    apply db₀.timers.eq_of_key_eq hrow₁ hrow₂
    exact hsame₁.id_eq.symm.trans (hkey.1.trans hsame₂.id_eq)
  subst hrow
  rw [thresholdsOf_of_sameTimer hsame₁] at hmem₁
  rw [thresholdsOf_of_sameTimer hsame₂] at hmem₂
  rw [hsame₁.timerType_eq] at hcovers₁
  rw [hsame₂.timerType_eq] at hcovers₂
  have ht := hclean.distinct row₁ hrow₁ t₁ hmem₁ t₂ hmem₂ hcovers₁ hcovers₂ hkey.2.1
  exact ⟨ht, hsame₁.ticketId_eq.trans hsame₂.ticketId_eq.symm⟩

theorem durable_congr (hkey : crossingKey timer₁ t₁ = crossingKey timer₂ t₂)
    (h : Durable dir db timer₁ t₁ resolved) : Durable dir db timer₂ t₂ resolved := by
  obtain ⟨payload, hop, hassigns⟩ := h
  refine ⟨payload, ?_, hassigns⟩
  simp only [escalationKey, hkey] at hop
  exact hop

theorem get?_escalation_fireStep {pc pc' : FirePc}
    (h : fireStep dir timer threshold db pc = .ok (db', pc')) (key : CrossingKey) :
    db'.commandOperations.get? (.escalation key) = db.commandOperations.get? (.escalation key) ∨
      crossingKey timer threshold = key ∧
        db.commandOperations.get? (.escalation key) = none ∧
        ∃ ticket resolved payload, pc = .assign ticket resolved payload ∧
          db'.commandOperations.get? (.escalation key) =
            some ⟨.escalation key, .assignment payload, .success ()⟩ := by
  have hwrite : ∀ crossing, (writeCrossing db crossing).1.commandOperations =
      db.commandOperations := by
    intro crossing
    unfold writeCrossing
    split
    · rfl
    · rfl
  cases pc with
  | assign ticket resolved payload =>
    simp only [fireStep] at h
    split at h
    · cases h
    · rename_i hassign
      cases h
      rcases setEntityAssignment_cases hassign with ⟨rfl, _⟩ | ⟨row, _, hfresh, rfl⟩
      · exact .inl rfl
      · simp only
        rw [get?_finish_begin hfresh]
        by_cases hkey : SlaCommandKey.escalation key = escalationKey timer threshold
        · rw [if_pos hkey]
          refine .inr ⟨(SlaCommandKey.escalation.inj hkey).symm, ?_, ticket, resolved, payload,
            rfl, ?_⟩
          · rw [hkey, hfresh]
          · rw [hkey]
        · rw [if_neg hkey]
          exact .inl rfl
  | watch ticket resolved payload =>
    cases h
    left
    unfold updateWatchers
    split
    · split
      · rfl
      · split
        · rename_i hgate
          split
          · rw [get?_finish_begin (gate_eq_proceed.mp hgate), if_neg (by simp)]
          · rfl
        · rfl
    · rfl
  | load =>
    simp only [fireStep] at h
    split at h
    · cases h
    · cases h
      exact .inl rfl
  | resolve ticket =>
    simp only [fireStep] at h
    split at h
    · cases h
      exact .inl rfl
    · split at h
      · cases h
        exact .inl rfl
      · cases h
        exact .inl rfl
  | plan ticket resolved =>
    simp only [fireStep] at h
    split at h
    · cases h
    · cases h
      exact .inl rfl
    · cases h
      exact .inl rfl
  | skip ticket =>
    cases h
    exact .inl (congrArg (fun ops => ops.get? (SlaCommandKey.escalation key)) (hwrite _))
  | cross ticket resolved reassigned =>
    cases h
    exact .inl (congrArg (fun ops => ops.get? (SlaCommandKey.escalation key)) (hwrite _))
  | probe ticket resolved =>
    cases h
    exact .inl rfl
  | announce crossing reassigned =>
    cases h
    exact .inl rfl
  | done =>
    cases h
    exact .inl rfl

end

/-! ## One call -/

/-- A state of the database on the way: what it keeps of the first one, and which tickets have been
read so far. -/
structure Way (dir : Directory) (db₀ : SlaDb) (read read' : SlaTimerRow → EntityRow → Prop)
    (db : SlaDb) : Prop where
  clean : CleanPolicies dir db₀
  persists : Persists db₀ db
  commands : CommandsOk dir db₀ db
  reads : ∀ timer ticket, read timer ticket → read' timer ticket
  loads : ∀ timer ticket, loadTicketForFire db timer.ticketId = some ticket → read' timer ticket
  ids : ∀ timer ticket, read timer ticket → ticket.id = timer.ticketId

section

variable {dir : Directory} {db₀ db db' : SlaDb} {read read' : SlaTimerRow → EntityRow → Prop}
  {timer : SlaTimerRow} {threshold : EscalationThreshold}

theorem Way.resolveTarget_eq (hway : Way dir db₀ read read' db) (hread : read timer ticket) :
    resolveTarget dir db threshold ticket.id = targetOf dir db₀ timer threshold := by
  rw [hway.ids timer ticket hread, targetOf, resolveTarget_congr hway.persists.requesters]

theorem Way.account (hway : Way dir db₀ read read' db) (happlies : Applies db₀ timer threshold)
    (hescalate : threshold.action = .escalate) {resolved : Assignee}
    (htarget : targetOf dir db₀ timer threshold = some resolved) :
    ∀ person, resolved = .person person → dir.usersOfPerson person ≠ [] := by
  obtain ⟨⟨row, hrow, hsame⟩, hmem, _⟩ := happlies
  intro person hperson
  rw [thresholdsOf_of_sameTimer hsame] at hmem
  refine hway.clean.accounts row hrow threshold hmem hescalate person ?_
  rw [← hperson, ← htarget, targetOf, hsame.ticketId_eq]

variable {pc : FirePc}

theorem pcOk_step {pc' : FirePc} (hway : Way dir db₀ read read' db)
    (happlies : Applies db₀ timer threshold) (hok : PcOk dir db₀ read db timer threshold pc)
    (hfire : fireStep dir timer threshold db pc = .ok (db', pc')) :
    PcOk dir db₀ read' db' timer threshold pc' := by
  have hpersists := (fireStep_kept hfire).persists
  cases pc with
  | load =>
    simp only [fireStep] at hfire
    split at hfire
    · cases hfire
    · rename_i ticket hload
      cases hfire
      exact hway.loads timer ticket hload
  | resolve ticket =>
    simp only [fireStep, hway.resolveTarget_eq hok] at hfire
    split at hfire
    · rename_i hnone
      cases hfire
      exact fun _ => hnone
    · rename_i resolved hresolved
      split at hfire
      · rename_i hnotify
        cases hfire
        refine ⟨hway.reads timer ticket hok, hresolved, ?_⟩
        intro hescalate
        rw [hnotify] at hescalate
        cases hescalate
      · rename_i hescalate
        cases hfire
        exact ⟨hway.reads timer ticket hok, hresolved, hescalate⟩
  | skip ticket =>
    cases hfire
    split
    · trivial
    · trivial
  | probe ticket resolved =>
    obtain ⟨hread, htarget, hescalate⟩ := hok
    cases hfire
    split
    · rename_i hprobe
      refine ⟨hway.reads timer ticket hread, htarget, fun _ => .inl ?_⟩
      unfold probeSuccess at hprobe
      split at hprobe
      · rename_i op hop
        exact hway.commands timer threshold op happlies hop resolved htarget
      · cases hprobe
    · exact ⟨hway.reads timer ticket hread, htarget, hescalate⟩
  | plan ticket resolved =>
    obtain ⟨hread, htarget, hescalate⟩ := hok
    simp only [fireStep] at hfire
    split at hfire
    · cases hfire
    · rename_i hnone
      cases hfire
      exact ⟨hway.reads timer ticket hread, htarget, fun _ => .inr
        (hasAssignee_of_assignmentFor (hway.account happlies hescalate htarget) hnone)⟩
    · rename_i payload hpayload
      cases hfire
      exact ⟨hway.reads timer ticket hread, htarget, assigns_of_assignmentFor hpayload⟩
  | assign ticket resolved payload =>
    obtain ⟨hread, htarget, hassigns⟩ := hok
    simp only [fireStep] at hfire
    split at hfire
    · cases hfire
    · rename_i hassign
      cases hfire
      refine ⟨hway.reads timer ticket hread, htarget, ?_⟩
      rcases setEntityAssignment_cases hassign with ⟨rfl, hcached⟩ | ⟨row, _, hfresh, rfl⟩
      · obtain ⟨op, hop⟩ := Option.ne_none_iff_exists'.mp hcached
        exact hway.commands timer threshold op happlies hop resolved htarget
      · refine ⟨payload, ?_, hassigns⟩
        simp only
        rw [get?_finish_begin hfresh, if_pos rfl]
  | watch ticket resolved payload =>
    obtain ⟨hread, htarget, hdurable⟩ := hok
    cases hfire
    exact ⟨hway.reads timer ticket hread, htarget, fun _ => .inl (hdurable.persists hpersists)⟩
  | cross ticket resolved reassigned =>
    cases hfire
    split
    · trivial
    · trivial
  | announce crossing reassigned =>
    cases hfire
    trivial
  | done =>
    cases hfire
    trivial

theorem commandsOk_fireStep {pc' : FirePc} (hway : Way dir db₀ read read' db)
    (happlies : Applies db₀ timer threshold) (hok : PcOk dir db₀ read db timer threshold pc)
    (hfire : fireStep dir timer threshold db pc = .ok (db', pc')) : CommandsOk dir db₀ db' := by
  have hpersists := (fireStep_kept hfire).persists
  intro timer' threshold' op happlies' hop resolved htarget
  rcases get?_escalation_fireStep hfire (crossingKey timer' threshold') with
    hsame | ⟨hkey, _, ticket, resolved', payload, rfl, hnew⟩
  · have hbefore : db.commandOperations.get? (escalationKey timer' threshold') = some op := by
      rw [← hop]
      exact hsame.symm
    exact (hway.commands timer' threshold' op happlies' hbefore resolved htarget).persists hpersists
  · obtain ⟨rfl, hticket⟩ := eq_of_escalationKey hway.clean happlies happlies' hkey
    obtain ⟨_, htarget', hassigns⟩ := hok
    rw [targetOf, ← hticket] at htarget
    rw [targetOf, htarget] at htarget'
    cases htarget'
    exact ⟨payload, hnew, hassigns⟩

theorem known_of_mem (hway : Way dir db₀ read read' db) (hmem : timer ∈ db.timers.rows) :
    Known db₀ timer :=
  hway.persists.timers timer hmem

theorem mem_of_mem_selectActive (hmem : timer ∈ selectActive db) : timer ∈ db.timers.rows := by
  have hsorted := List.mem_of_mem_take hmem
  rw [List.mem_insertionSort] at hsorted
  exact (List.mem_filter.mp hsorted).1

theorem thresholdsOf_persists (h : Persists db₀ db) (timer : SlaTimerRow) :
    db.thresholdsOf timer = db₀.thresholdsOf timer := by
  unfold SlaDb.thresholdsOf
  rw [h.policies]

theorem workOk_workOf {now : Int} {timers : List (SlaTimerRow × List EscalationThreshold)}
    {keys : List CrossingKey}
    (h : ∀ t ∈ timers, Known db₀ t.1 ∧ ∀ threshold ∈ t.2, threshold ∈ db₀.thresholdsOf t.1) :
    WorkOk db₀ (workOf now timers keys) := by
  intro w hw threshold hthreshold
  obtain ⟨t, ht, rfl⟩ := List.mem_map.mp hw
  rw [sortByPercent, List.mem_insertionSort] at hthreshold
  obtain ⟨hmem, hselected⟩ := List.mem_filter.mp hthreshold
  simp only [isDue, Bool.and_eq_true] at hselected
  exact ⟨(h t ht).1, (h t ht).2 threshold hmem, hselected.1.1⟩

variable {work : List (SlaTimerRow × List EscalationThreshold)}

theorem WorkOk.tail {w : SlaTimerRow × List EscalationThreshold} (h : WorkOk db₀ (w :: work)) :
    WorkOk db₀ work := fun v hv => h v (List.mem_cons_of_mem w hv)

variable {thresholds : List EscalationThreshold}

theorem WorkOk.rest (h : WorkOk db₀ ((timer, threshold :: thresholds) :: work)) :
    WorkOk db₀ ((timer, thresholds) :: work) := by
  intro w hw
  rcases List.mem_cons.mp hw with rfl | hw
  · intro t ht
    exact h _ List.mem_cons_self t (List.mem_cons_of_mem threshold ht)
  · exact h w (List.mem_cons_of_mem _ hw)

theorem WorkOk.head
    (h : WorkOk db₀ ((timer, threshold :: thresholds) :: work)) : Applies db₀ timer threshold :=
  h _ List.mem_cons_self threshold List.mem_cons_self

theorem commandsOk_of_eq (hway : Way dir db₀ read read' db)
    (h : db'.commandOperations = db.commandOperations) : CommandsOk dir db₀ db' := by
  intro timer threshold op happlies hop resolved htarget
  rw [h] at hop
  obtain ⟨payload, hget, hassigns⟩ := hway.commands timer threshold op happlies hop resolved htarget
  exact ⟨payload, by rw [h]; exact hget, hassigns⟩

theorem tickOk_afterFire (hwork : WorkOk db₀ ((timer, threshold :: thresholds) :: work))
    (hpc : PcOk dir db₀ read db timer threshold pc) :
    TickOk dir db₀ read db (afterFire timer threshold pc thresholds work) := by
  unfold afterFire
  split
  · exact hwork.rest
  · exact ⟨hwork, hpc⟩

theorem tickOk_step (hway : Way dir db₀ read read' db) (hok : TickOk dir db₀ read db s) :
    TickOk dir db₀ read' (tickStep dir db s).1 (tickStep dir db s).2 ∧
      CommandsOk dir db₀ (tickStep dir db s).1 := by
  cases s with
  | idle => exact ⟨trivial, hway.commands⟩
  | marking now timerIds => exact ⟨trivial, commandsOk_of_eq hway rfl⟩
  | selecting now =>
    refine ⟨?_, hway.commands⟩
    intro t ht
    exact known_of_mem hway (mem_of_mem_selectActive ht)
  | loadingPolicies now timers =>
    refine ⟨?_, hway.commands⟩
    intro t ht
    obtain ⟨timer, htimer, rfl⟩ := List.mem_map.mp ht
    refine ⟨hok timer htimer, ?_⟩
    intro threshold hthreshold
    rwa [thresholdsOf_persists hway.persists] at hthreshold
  | loadingCrossings now timers => exact ⟨workOk_workOf hok, hway.commands⟩
  | pass work =>
    cases work with
    | nil => exact ⟨trivial, hway.commands⟩
    | cons w work =>
      obtain ⟨timer, thresholds⟩ := w
      cases thresholds with
      | nil => exact ⟨hok.tail, hway.commands⟩
      | cons threshold thresholds => exact ⟨⟨hok, trivial⟩, hway.commands⟩
  | fire timer threshold pc thresholds work =>
    obtain ⟨hwork, hpc⟩ := hok
    simp only [tickStep]
    cases hfire : fireStep dir timer threshold db pc with
    | error e => exact ⟨hwork.tail, hway.commands⟩
    | ok next =>
      obtain ⟨db', pc'⟩ := next
      refine ⟨?_, commandsOk_fireStep hway hwork.head hpc hfire⟩
      exact tickOk_afterFire hwork (pcOk_step hway hwork.head hpc hfire)
  | ended => exact ⟨trivial, hway.commands⟩

theorem tickOk_failure {applied : Bool} (hway : Way dir db₀ read read' db)
    (hok : TickOk dir db₀ read db s) (hpersists : Persists db db')
    (hmanager : ∀ timer threshold ticket thresholds work,
      s = .fire timer threshold (.resolve ticket) thresholds work →
        threshold.targetType = .managerOfRequester → threshold.action = .notify) :
    TickOk dir db₀ read' db' (afterFailure dir db applied s) := by
  cases s with
  | idle => trivial
  | marking now timerIds => trivial
  | selecting now => trivial
  | loadingPolicies now timers =>
    intro t ht
    obtain ⟨timer, htimer, rfl⟩ := List.mem_map.mp ht
    exact ⟨hok timer htimer, fun _ h => absurd h List.not_mem_nil⟩
  | loadingCrossings now timers => exact workOk_workOf hok
  | pass work => exact hok
  | ended => trivial
  | fire timer threshold pc thresholds work =>
    obtain ⟨hwork, hpc⟩ := hok
    cases pc with
    | resolve ticket =>
      simp only [afterFailure]
      split
      · rename_i htype
        refine ⟨hwork, ?_⟩
        intro hescalate
        rw [hmanager timer threshold ticket thresholds work rfl htype] at hescalate
        cases hescalate
      · exact ⟨hwork, hpc.persists hpersists (hway.reads timer)⟩
    | plan ticket resolved =>
      obtain ⟨hread, htarget, hescalate⟩ := hpc
      simp only [afterFailure]
      split
      · split
        · exact hwork.tail
        · rename_i hnone
          refine ⟨hwork, hway.reads timer ticket hread, htarget, fun _ => .inr ?_⟩
          have haccount := hway.account hwork.head hescalate htarget
          have hassignee : ticket.hasAssignee { dir with personOfUser := fun _ => none } resolved :=
            hasAssignee_of_assignmentFor haccount hnone
          cases resolved with
          | team teamId => exact hassignee
          | person personId => exact hassignee
        · rename_i payload hpayload
          refine ⟨hwork, hway.reads timer ticket hread, htarget, ?_⟩
          have hassigns := assigns_of_assignmentFor hpayload
          cases resolved with
          | team teamId => exact hassigns
          | person personId => exact hassigns
      · exact hwork.tail
    | watch ticket resolved payload =>
      obtain ⟨hread, htarget, hdurable⟩ := hpc
      exact ⟨hwork, hway.reads timer ticket hread, htarget,
        fun _ => .inl (hdurable.persists hpersists)⟩
    | announce crossing reassigned => exact hwork.rest
    | _ => exact hwork.tail

end

/-! ## Every run -/

section

variable {dir : Directory} {w : World}

variable {as : List Action} {timer : SlaTimerRow}

theorem WasRead.append (h : WasRead dir w as timer ticket) (a : Action) :
    WasRead dir w (as ++ [a]) timer ticket := by
  obtain ⟨pre, post, rfl, hload⟩ := h
  exact ⟨pre, post ++ [a], by rw [List.append_assoc], hload⟩

structure RaceInv (dir : Directory) (w : World) (as : List Action) : Prop where
  persists : Persists w.db (run (step dir) w as).db
  commands : CommandsOk dir w.db (run (step dir) w as).db
  ticks : ∀ i, TickOk dir w.db (WasRead dir w as) (run (step dir) w as).db
    ((run (step dir) w as).ticks i)

theorem RaceInv.way (h : RaceInv dir w as) (hclean : CleanPolicies dir w.db) (a : Action) :
    Way dir w.db (WasRead dir w as) (WasRead dir w (as ++ [a])) (run (step dir) w as).db where
  clean := hclean
  persists := h.persists
  commands := h.commands
  reads := fun _ _ hread => hread.append a
  loads := fun _ _ hload => ⟨as, [a], rfl, hload⟩
  ids := by
    intro timer ticket hread
    obtain ⟨_, _, _, hload⟩ := hread
    exact (loadTicketForFire_id hload).1

theorem tickOk_put {read read' : SlaTimerRow → EntityRow → Prop} {db₀ : SlaDb} {v : World} {i : Nat}
    {next : SlaDb × TickState} (hpersists : Persists v.db next.1)
    (hread : ∀ timer ticket, read timer ticket → read' timer ticket)
    (hothers : ∀ j, TickOk dir db₀ read v.db (v.ticks j))
    (hnext : TickOk dir db₀ read' next.1 next.2) (j : Nat) :
    TickOk dir db₀ read' (v.put i next).db ((v.put i next).ticks j) := by
  by_cases hji : j = i
  · subst hji
    simp only [World.put, Function.update_self]
    exact hnext
  · simp only [World.put, Function.update_of_ne hji]
    exact (hothers j).persists hpersists hread

theorem raceInv_step {a : Action} (h : RaceInv dir w as)
    (hclean : CleanPolicies dir w.db) (hok : ManagerRead (run (step dir) w as) a) :
    RaceInv dir w (as ++ [a]) := by
  have hway := h.way hclean a
  have hrun : run (step dir) w (as ++ [a]) = step dir (run (step dir) w as) a := by
    rw [run_append]
    rfl
  have hpersists := step_persists dir (run (step dir) w as) a
  refine ⟨?_, ?_, ?_⟩
  · rw [hrun]
    exact h.persists.trans hpersists
  · rw [hrun]
    rcases step_db dir (run (step dir) w as) a with hsame | ⟨i, _, hstep⟩
    · rw [hsame]
      exact h.commands
    · rw [hstep]
      exact (tickOk_step hway (h.ticks i)).2
  · intro j
    rw [hrun]
    cases a with
    | start i now =>
      simp only [step]
      split
      · refine tickOk_put (.refl _) hway.reads h.ticks ?_ j
        trivial
      · exact (h.ticks j).persists (.refl _) hway.reads
    | advance i =>
      exact tickOk_put (tickStep_persists dir _ _) hway.reads h.ticks (tickOk_step hway (h.ticks i)).1 j
    | fail i applied =>
      have hnext : Persists (run (step dir) w as).db
          (tickFail dir (run (step dir) w as).db applied ((run (step dir) w as).ticks i)).1 := by
        unfold tickFail
        split
        · exact tickStep_persists dir _ _
        · exact .refl _
      refine tickOk_put hnext hway.reads h.ticks ?_ j
      refine tickOk_failure hway (h.ticks i) hnext ?_
      intro timer threshold ticket thresholds work hstate htype
      exact hok i applied timer threshold ticket thresholds work rfl hstate htype
    | crash i applied =>
      refine tickOk_put ?_ hway.reads h.ticks ?_ j
      · split
        · exact tickStep_persists dir _ _
        · exact .refl _
      · trivial

theorem raceInv_run (hstart : Start w) (hclean : CleanPolicies dir w.db)
    (hok : Guarded (step dir) ManagerRead w as) : RaceInv dir w as := by
  induction as using List.reverseRecOn with
  | nil =>
    refine ⟨.refl _, ?_, ?_⟩
    · intro timer threshold op _ hop
      rw [run_nil, escalationKey, hstart.fresh] at hop
      cases hop
    · intro i
      rw [run_nil, hstart.idle i]
      trivial
  | append_singleton as a ih =>
    have hsplit := guarded_append.mp hok
    exact raceInv_step (ih hsplit.1) hclean hsplit.2.1

theorem crossing_of_fireStep {db db' : SlaDb} {threshold : EscalationThreshold} {pc pc' : FirePc}
    {c : Crossing} (h : fireStep dir timer threshold db pc = .ok (db', pc'))
    (hnew : c ∈ db'.crossings.rows) (hold : c ∉ db.crossings.rows) :
    c.crossed = crossingKey timer threshold ∧
      ((∃ ticket, pc = .skip ticket) ∨
        ∃ ticket resolved reassigned, pc = .cross ticket resolved reassigned) := by
  have hwrite : ∀ crossing, c ∈ (writeCrossing db crossing).1.crossings.rows → c = crossing := by
    intro crossing hmem
    unfold writeCrossing at hmem
    split at hmem
    · rename_i crossings hinsert
      rw [(Table.insert?_eq_some hinsert).1] at hmem
      exact List.mem_singleton.mp ((List.mem_append.mp hmem).resolve_left hold)
    · exact absurd hmem hold
  have hsame : db'.crossings = db.crossings → False := by
    intro hcrossings
    rw [hcrossings] at hnew
    exact hold hnew
  cases pc with
  | skip ticket =>
    cases h
    refine ⟨?_, .inl ⟨ticket, rfl⟩⟩
    rw [hwrite _ hnew]
    rfl
  | cross ticket resolved reassigned =>
    cases h
    refine ⟨?_, .inr ⟨ticket, resolved, reassigned, rfl⟩⟩
    rw [hwrite _ hnew]
    rfl
  | assign ticket resolved payload =>
    simp only [fireStep] at h
    split at h
    · cases h
    · rename_i hassign
      cases h
      rcases setEntityAssignment_cases hassign with ⟨rfl, _⟩ | ⟨row, _, _, rfl⟩
      · exact (hsame rfl).elim
      · exact (hsame rfl).elim
  | watch ticket resolved payload =>
    cases h
    refine (hsame ?_).elim
    unfold updateWatchers
    split
    · split
      · rfl
      · split
        · split
          · rfl
          · rfl
        · rfl
    · rfl
  | load =>
    simp only [fireStep] at h
    split at h
    · cases h
    · cases h
      exact (hsame rfl).elim
  | resolve ticket =>
    simp only [fireStep] at h
    split at h
    · cases h
      exact (hsame rfl).elim
    · split at h
      · cases h
        exact (hsame rfl).elim
      · cases h
        exact (hsame rfl).elim
  | plan ticket resolved =>
    simp only [fireStep] at h
    split at h
    · cases h
    · cases h
      exact (hsame rfl).elim
    · cases h
      exact (hsame rfl).elim
  | probe ticket resolved =>
    cases h
    exact (hsame rfl).elim
  | announce crossing reassigned =>
    cases h
    exact (hsame rfl).elim
  | done =>
    cases h
    exact (hsame rfl).elim

theorem crossing_of_tickStep {db : SlaDb} {c : Crossing}
    (hnew : c ∈ (tickStep dir db s).1.crossings.rows) (hold : c ∉ db.crossings.rows) :
    ∃ timer threshold pc thresholds work, s = .fire timer threshold pc thresholds work ∧
      c.crossed = crossingKey timer threshold ∧
      ((∃ ticket, pc = .skip ticket) ∨
        ∃ ticket resolved reassigned, pc = .cross ticket resolved reassigned) := by
  unfold tickStep at hnew
  split at hnew
  case h_9 timer threshold pc thresholds work =>
    split at hnew
    · exact absurd hnew hold
    · rename_i hfire
      exact ⟨timer, threshold, pc, thresholds, work, rfl, crossing_of_fireStep hfire hnew hold⟩
  all_goals exact absurd hnew hold

theorem Reassigns.commands {v : World} {a : Action} {key : CrossingKey}
    (h : Reassigns dir v a key) :
    v.db.commandOperations.get? (.escalation key) = none ∧
      (step dir v a).db.commandOperations.get? (.escalation key) ≠ none := by
  obtain ⟨hchanged, i, timer, threshold, ticket, resolved, payload, thresholds, work, hacts,
    hstate, rfl⟩ := h
  have hstep : (step dir v a).db = (tickStep dir v.db (v.ticks i)).1 := by
    rcases hacts with rfl | rfl | rfl
    · rfl
    · rfl
    · rfl
  rw [hstep, hstate] at hchanged ⊢
  simp only [tickStep, fireStep] at hchanged ⊢
  cases hassign : setEntityAssignment dir v.db (ticket.kind, ticket.id)
      (escalationKey timer threshold) payload with
  | error e =>
    simp only [hassign] at hchanged
    exact absurd rfl hchanged
  | ok db' =>
    simp only [hassign] at hchanged ⊢
    rcases setEntityAssignment_cases hassign with ⟨rfl, _⟩ | ⟨row, _, hfresh, rfl⟩
    · exact absurd rfl hchanged
    · refine ⟨hfresh, ?_⟩
      simp only
      rw [get?_finish_begin hfresh]
      simp [escalationKey]

/-- In every run over clean policies in which no lookup of a manager to escalate to fails, crossings
and reassignments happen once and in this order; a later tick that finds what is due in time
records it. -/
theorem escalatesOnce_of_run {as : List Action} {i : Nat} {now : Int} (hstart : Start w)
    (hclean : CleanPolicies dir w.db) (hok : Guarded (step dir) ManagerRead w as)
    (hresting : ((run (step dir) w as).ticks i).resting = true)
    (hdue : DueInTime dir (run (step dir) w as).db now) : EscalatesOnce dir w as i now := by
  constructor
  · intro pre post _ c hc c' hc' hkey
    exact (run (step dir) w pre).db.crossings.eq_of_key_eq hc hc' hkey
  · intro pre a mid a' post key _ hfirst hsecond
    obtain ⟨op, hop⟩ := Option.ne_none_iff_exists'.mp hfirst.commands.2
    have hkept := (run_persists dir (step dir (run (step dir) w pre) a) mid).commands
      (.escalation key) op hop
    have hnone := hsecond.commands.1
    rw [run_append, run_cons, hkept] at hnone
    cases hnone
  · intro pre a post hsplit c hnew hold timer htimer threshold hthreshold hcovers hescalate hkey
      resolved htarget
    have hinv := raceInv_run hstart hclean (Guarded.take (hsplit ▸ hok))
    rw [run_append] at hnew
    simp only [run_cons, run_nil] at hnew
    rcases step_db dir (run (step dir) w pre) a with hsame | ⟨j, _, hstep⟩
    · rw [hsame] at hnew
      exact absurd hnew hold
    · rw [hstep] at hnew
      obtain ⟨timer', threshold', pc, thresholds, work, hstate, hcrossed, hpc⟩ :=
        crossing_of_tickStep hnew hold
      have hknows := hinv.ticks j
      rw [hstate] at hknows
      obtain ⟨hwork, hpcOk⟩ := hknows
      -- The firing is that of the threshold, since the key is its own.
      have happlies : Applies w.db timer threshold := ⟨⟨timer, htimer, rfl⟩, hthreshold, hcovers⟩
      have hkeys : crossingKey timer' threshold' = crossingKey timer threshold := by
        rw [hkey, hcrossed]
      obtain ⟨rfl, hticket⟩ := eq_of_escalationKey hclean hwork.head happlies hkeys
      have htarget' : targetOf dir w.db timer' threshold' = some resolved := by
        rw [targetOf, hticket]
        exact htarget
      rcases hpc with ⟨ticket, rfl⟩ | ⟨ticket, resolved', reassigned, rfl⟩
      · have hnobody := hpcOk hescalate
        rw [htarget'] at hnobody
        cases hnobody
      · obtain ⟨hread, hresolved, hsettled⟩ := hpcOk
        rw [htarget'] at hresolved
        cases hresolved
        rcases hsettled hescalate with hdurable | hassignee
        · exact .inl (durable_congr hkeys hdurable)
        · refine .inr ⟨ticket, ?_, hassignee⟩
          obtain ⟨first, rest, hsplit', hload⟩ := hread
          exact ⟨first, rest, hsplit', by rw [← hticket]; exact hload⟩
  · intro n hended
    rw [run_append] at hended ⊢
    rw [alone_eq_tick hresting hended]
    have hpersists := run_persists dir w as
    refine tick_allDueRecorded ⟨?_, hpersists.succeeded hstart.batch.succeeded⟩ hdue
    rw [hpersists.count]
    exact hstart.batch.limit

end

/-! ## A tick that stops -/

theorem nodup_resolutionTimer :
    ([({ id := 1, ticketId := 2, slaPolicyId := 3, timerType := .resolution, startedAt := 0,
         dueAt := 1000 } : SlaTimerRow)].map key).Nodup := by decide

theorem nodup_caseTwo :
    ([({ kind := .case, id := 2, assignedUserId := some 7 } : EntityRow)].map key).Nodup := by decide

/-- A timer of 1000 ms whose case, that of user 7, is given to team 4 at 80 percent, and no tick
yet. -/
def escalatesAt80 : World where
  db :=
    { timers := ⟨[{ id := 1, ticketId := 2, slaPolicyId := 3, timerType := .resolution,
                    startedAt := 0, dueAt := 1000 }], nodup_resolutionTimer⟩
      policies := ⟨[{ id := 3, name := "gold", valid := by decide, escalationThresholds := [
          ⟨80, .both, .escalate, .team, some 4⟩] }], by decide⟩
      entities := ⟨[{ kind := .case, id := 2, assignedUserId := some 7 }], nodup_caseTwo⟩ }
  ticks := fun _ => .idle

theorem escalatesAt80_start : Start escalatesAt80 where
  idle := fun _ => rfl
  batch := ⟨by decide, by unfold AllSucceeded; decide⟩
  fresh := fun _ => rfl

/-- The instance stops before it fires, and its next tick comes after the due time. -/
theorem crashThenDue_suppressed :
    ¬ ∀ dir w as i now, Start w → ((run (step dir) w as).ticks i).resting = true →
      EscalatesOnce dir w as i now := by
  intro hlaw
  have hretried := (hlaw oneOfEach escalatesAt80 [.start 0 900, .crash 0 false] 0 1100
    escalatesAt80_start rfl).retried 5 (by decide +kernel)
  revert hretried
  decide +kernel

/-- The instance stops right after the reassignment is committed. -/
def crashAfterAssign : List Action :=
  .start 0 900 :: List.replicate 9 (.advance 0) ++ [.crash 0 true]

theorem escalatesAt80_clean : CleanPolicies oneOfEach escalatesAt80.db where
  distinct := by decide
  accounts := by
    intro timer htimer t ht _ person hperson
    cases List.mem_singleton.mp htimer
    cases List.mem_singleton.mp ht
    cases hperson

/-- A tick in time records the crossing of the reassignment that was committed before the stop. -/
theorem crashAfterAssign_retried :
    EscalatesOnce oneOfEach escalatesAt80 crashAfterAssign 0 950 := by
  refine escalatesOnce_of_run escalatesAt80_start escalatesAt80_clean ?_ (by decide +kernel)
    ⟨by decide +kernel, by decide +kernel⟩
  refine guarded_iff.mpr ?_
  intro pre a post hsplit i applied timer threshold ticket thresholds work hfail
  have hmem : Action.fail i applied ∈ crashAfterAssign := by rw [hsplit, hfail]; simp
  simp [crashAfterAssign] at hmem

end Prequest.Sla
