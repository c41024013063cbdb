import Prequest.Workflow.WakeRace

/-!
# Every interleaving of the resolvers

The proof of the law of `ResolvedOnce` for every interleaving.

* `resolvedOnce`: the law of every interleaving.
* `resolvedTwice`: a link that two resolvers resolve, one after the other.
-/

namespace Prequest.Workflow

open Lib

/-! ## The invariant -/

def Worker.snapshot : Worker → Option LinkRow
  | .selected _ link => some link
  | .claimed _ link => some link
  | .advancing link _ => link
  | .failing link => some link
  | _ => none

def Worker.holding : Worker → Option (LinkRow × Bool)
  | .claimed _ link => some (link, false)
  | .advancing link _ => link.map fun link => (link, false)
  | .failing link => some (link, true)
  | _ => none

def Worker.advances : Worker → Option Nat
  | .advancing _ instanceId => some instanceId
  | _ => none

/-- The link has a row that differs from what was read in the resolution alone. -/
def RaceWorld.Knows (s : RaceWorld) (link : LinkRow) : Prop :=
  ∃ row, s.links.get? link.id = some row ∧ row.config = link.config

/-- No call can resume the instance any more on account of the link. -/
def RaceWorld.IsSpent (s : RaceWorld) (linkId : Nat) (row : LinkRow) : Prop :=
  (∃ i link p, s.worker i = .advancing (some link) p ∧ link.id = linkId) ∨
    (row.resolvedAt.isSome = true ∧ ∀ i link failed, (s.worker i).holding = some (link, failed) →
      link.id ≠ linkId) ∨
    (s.status row.parentInstanceId ≠ some .waiting ∧
      ∀ i, (s.worker i).advances ≠ some row.parentInstanceId)

def Entry.Fits (linkId : Nat) (holder : Option Holder) : Entry → Prop
  | .resolved row _ _ => row.id = linkId → holder = none
  | .reopened id i => id = linkId → ∃ h, holder = some h ∧ h.worker = i ∧ h.failed = true
  | _ => True

structure RaceInv (s : RaceWorld) : Prop where
  known : ∀ i link, (s.worker i).snapshot = some link → s.Knows link
  matched : ∀ i event link, s.worker i = .selected (.wake event) link → isWaitMatch event link = true
  held : ∀ i link failed, (s.worker i).holding = some (link, failed) →
    ∃ h, holderOf link.id s.log = some h ∧ h.worker = i ∧ (failed = true → h.failed = true)
  closed : ∀ linkId h, holderOf linkId s.log = some h → ∃ row, s.links.get? linkId = some row ∧
    row.resolvedAt.isSome = true ∧ row.resolutionKind = some h.kind
  busy : ∀ i p, (s.worker i).advances = some p → s.status p ≠ some .waiting
  alone : ∀ i j p, (s.worker i).advances = some p → (s.worker j).advances = some p → i = j
  parent : ∀ i link p, s.worker i = .advancing (some link) p → p = link.parentInstanceId
  spent : ∀ linkId, .resumed linkId ∈ s.log → ∃ row, s.links.get? linkId = some row ∧
    s.IsSpent linkId row
  counted : ∀ linkId, s.log.count (.resumed linkId) ≤ 1
  fits : ∀ linkId, Guarded (Entry.apply linkId) (Entry.Fits linkId) none s.log
  right : ∀ row i cause, .resolved row i cause ∈ s.log → cause.IsRight row

section

variable {s : RaceWorld}

@[simp] theorem holderOf_append (linkId : Nat) (log : List Entry) (e : Entry) :
    holderOf linkId (log ++ [e]) = e.apply linkId (holderOf linkId log) := by
  unfold holderOf
  rw [run_append]
  rfl

theorem RaceInv.start (links : Table LinkRow) (status : Nat → Option InstanceStatus) :
    RaceInv { links := links, status := status } := by
  constructor <;> intros <;> simp_all [Worker.snapshot, Worker.holding, Worker.advances, holderOf, Guarded]

theorem RaceWorld.worker_setWorker (s : RaceWorld) (i : Nat) (w : Worker) (j : Nat) :
    (s.setWorker i w).worker j = if j = i then w else s.worker j := rfl

variable {i : Nat} {link : LinkRow}

theorem RaceInv.holding_unique (h : RaceInv s) {j : Nat} {link' : LinkRow}
    {failed failed' : Bool} (hi : (s.worker i).holding = some (link, failed))
    (hj : (s.worker j).holding = some (link', failed')) (hid : link.id = link'.id) : i = j := by
  obtain ⟨holder, hholder, rfl, _⟩ := h.held i link failed hi
  obtain ⟨holder', hholder', rfl, _⟩ := h.held j link' failed' hj
  rw [hid, hholder'] at hholder
  cases hholder
  rfl

theorem RaceInv.resolved (h : RaceInv s) {failed : Bool}
    (hi : (s.worker i).holding = some (link, failed)) :
    ∃ row, s.links.get? link.id = some row ∧ row.resolvedAt.isSome = true := by
  obtain ⟨holder, hholder, _⟩ := h.held i link failed hi
  obtain ⟨row, hrow, hresolved, _⟩ := h.closed link.id holder hholder
  exact ⟨row, hrow, hresolved⟩

/-! ## The invariant is kept -/

theorem RaceInv.setWorker (h : RaceInv s) {w : Worker}
    (hknown : ∀ link, w.snapshot = some link → s.Knows link)
    (hmatched : ∀ event link, w = .selected (.wake event) link → isWaitMatch event link = true)
    (hheld : ∀ link failed, w.holding = some (link, failed) →
      ∃ h, holderOf link.id s.log = some h ∧ h.worker = i ∧ (failed = true → h.failed = true))
    (hadvances : ∀ p, w.advances = some p → s.status p ≠ some .waiting ∧
      ∀ j, j ≠ i → (s.worker j).advances ≠ some p)
    (hparent : ∀ link p, w = .advancing (some link) p → p = link.parentInstanceId)
    (hspent : ∀ linkId, .resumed linkId ∈ s.log → ∃ row, s.links.get? linkId = some row ∧
      (s.setWorker i w).IsSpent linkId row) : RaceInv (s.setWorker i w) where
  known j link hj := by
    rw [RaceWorld.worker_setWorker] at hj
    split at hj
    · exact hknown link hj
    · exact h.known j link hj
  matched j event link hj := by
    rw [RaceWorld.worker_setWorker] at hj
    split at hj
    · exact hmatched event link hj
    · exact h.matched j event link hj
  held j link failed hj := by
    rw [RaceWorld.worker_setWorker] at hj
    split at hj
    · rename_i hji
      rw [hji]
      exact hheld link failed hj
    · exact h.held j link failed hj
  closed := h.closed
  busy j p hj := by
    rw [RaceWorld.worker_setWorker] at hj
    split at hj
    · exact (hadvances p hj).1
    · exact h.busy j p hj
  alone j k p hj hk := by
    rw [RaceWorld.worker_setWorker] at hj hk
    split at hj <;> split at hk <;> rename_i hji hki
    · exact hji.trans hki.symm
    · exact absurd hk ((hadvances p hj).2 k hki)
    · exact absurd hj ((hadvances p hk).2 j hji)
    · exact h.alone j k p hj hk
  parent j link p hj := by
    rw [RaceWorld.worker_setWorker] at hj
    split at hj
    · exact hparent link p hj
    · exact h.parent j link p hj
  spent := hspent
  counted := h.counted
  fits := h.fits
  right := h.right

variable {linkId : Nat}

theorem RaceInv.spent_setWorker (h : RaceInv s) (i : Nat) {w : Worker} (hholding : w.holding = none)
    (hadvances : w.advances = none) (hmem : .resumed linkId ∈ s.log) :
    ∃ row, s.links.get? linkId = some row ∧ (s.setWorker i w).IsSpent linkId row := by
  obtain ⟨row, hrow, hspent⟩ := h.spent linkId hmem
  refine ⟨row, hrow, ?_⟩
  rcases hspent with ⟨j, link, p, hj, hid⟩ | ⟨hresolved, hfree⟩ | ⟨hstatus, hdead⟩
  · by_cases hji : j = i
    · -- The link stays resolved, and nobody else has it.
      subst hji
      have hjholding : (s.worker j).holding = some (link, false) := by
        rw [hj]
        rfl
      obtain ⟨row', hrow', hresolved⟩ := h.resolved hjholding
      rw [hid, hrow] at hrow'
      cases hrow'
      refine .inr (.inl ⟨hresolved, ?_⟩)
      intro k link' failed hk hid'
      rw [RaceWorld.worker_setWorker] at hk
      split at hk
      · rw [hholding] at hk
        cases hk
      · rename_i hkj
        exact hkj (h.holding_unique hk hjholding (hid'.trans hid.symm))
    · refine .inl ⟨j, link, p, ?_, hid⟩
      rw [RaceWorld.worker_setWorker, if_neg hji]
      exact hj
  · refine .inr (.inl ⟨hresolved, ?_⟩)
    intro k link failed hk
    rw [RaceWorld.worker_setWorker] at hk
    split at hk
    · rw [hholding] at hk
      cases hk
    · exact hfree k link failed hk
  · refine .inr (.inr ⟨hstatus, ?_⟩)
    intro k hk
    rw [RaceWorld.worker_setWorker] at hk
    split at hk
    · rw [hadvances] at hk
      cases hk
    · exact hdead k hk

theorem RaceInv.rest (h : RaceInv s) (i : Nat) : RaceInv (s.setWorker i .idle) := by
  refine h.setWorker ?_ ?_ ?_ ?_ ?_ fun linkId hmem => h.spent_setWorker i rfl rfl hmem
  · intro link hlink
    cases hlink
  · intro event link hw
    cases hw
  · intro link failed hw
    cases hw
  · intro p hp
    cases hp
  · intro link p hw
    cases hw

variable {row : LinkRow}

theorem get?_resolve {links : Table LinkRow} {p : LinkRow → Bool}
    (hp : ∀ r, p r = true → r.id = linkId) (hrow : links.get? linkId = some row)
    (hclaims : p row = true) (now : Nat) (kind : ResolutionKind) (id : Nat) :
    (links.update p (resolveAs now kind)).get? id =
      if id = linkId then some { row with resolvedAt := some now, resolutionKind := some kind }
      else links.get? id := by
  rw [Table.get?_update]
  split
  · rename_i hid
    rw [hid, hrow, Option.map_some, Table.updated_of_true hclaims]
    rfl
  · rename_i hid
    cases hget : links.get? id with
    | none => rfl
    | some r =>
      have hkey : r.id = id := (Table.get?_eq_some.mp hget).2
      have hnot : p r = false := by
        rw [Bool.eq_false_iff]
        intro hpr
        exact hid (hkey.symm.trans (hp r hpr))
      rw [Option.map_some, Table.updated_of_false hnot]

/-- A link that is not resolved has been spent for good, or never. -/
theorem RaceInv.dead_of_unresolved (h : RaceInv s)
    (hrow : s.links.get? linkId = some row) (hunresolved : row.resolvedAt = none)
    (hmem : .resumed linkId ∈ s.log) :
    s.status row.parentInstanceId ≠ some .waiting ∧
      ∀ i, (s.worker i).advances ≠ some row.parentInstanceId := by
  obtain ⟨row', hrow', hspent⟩ := h.spent linkId hmem
  rw [hrow] at hrow'
  cases hrow'
  rcases hspent with ⟨j, link, p, hj, hid⟩ | ⟨hresolved, _⟩ | hdead
  · have hholding : (s.worker j).holding = some (link, false) := by
      rw [hj]
      rfl
    obtain ⟨row', hrow', hresolved⟩ := h.resolved hholding
    rw [hid, hrow] at hrow'
    cases hrow'
    rw [hunresolved] at hresolved
    cases hresolved
  · rw [hunresolved] at hresolved
    cases hresolved
  · exact hdead

theorem RaceInv.holderOf_of_unresolved (h : RaceInv s)
    (hrow : s.links.get? linkId = some row) (hunresolved : row.resolvedAt = none) :
    holderOf linkId s.log = none := by
  cases hholder : holderOf linkId s.log with
  | none => rfl
  | some holder =>
    obtain ⟨row', hrow', hresolved, _⟩ := h.closed linkId holder hholder
    rw [hrow] at hrow'
    cases hrow'
    rw [hunresolved] at hresolved
    cases hresolved

variable {now : Nat}

theorem RaceInv.resolveRow (h : RaceInv s) {p : LinkRow → Bool} {cause : Cause}
    (hp : ∀ r, p r = true → r.id = linkId)
    (hrow : s.links.get? linkId = some row) (hclaims : p row = true)
    (hunresolved : row.resolvedAt = none) (hright : cause.IsRight row) :
    RaceInv ({ s with links := s.links.update p (resolveAs now cause.kind) }.append
      (.resolved row i cause)) := by
  have hget := fun id => get?_resolve hp hrow hclaims now cause.kind id
  have hid : row.id = linkId := (Table.get?_eq_some.mp hrow).2
  have hnone := h.holderOf_of_unresolved hrow hunresolved
  constructor
  · intro j link hj
    obtain ⟨r, hr, hconfig⟩ := h.known j link hj
    unfold RaceWorld.Knows
    by_cases hlink : link.id = linkId
    · refine ⟨{ row with resolvedAt := some now, resolutionKind := some cause.kind }, ?_, ?_⟩
      · exact (hget link.id).trans (if_pos hlink)
      · rw [hlink, hrow] at hr
        cases hr
        exact hconfig
    · exact ⟨r, (hget link.id).trans ((if_neg hlink).trans hr), hconfig⟩
  · exact h.matched
  · intro j link failed hj
    obtain ⟨holder, hholder, hworker, hfailed⟩ := h.held j link failed hj
    have hne : row.id ≠ link.id := by
      intro heq
      rw [← heq, hid, hnone] at hholder
      cases hholder
    refine ⟨holder, ?_, hworker, hfailed⟩
    show holderOf link.id (s.log ++ [.resolved row i cause]) = some holder
    rw [holderOf_append, Entry.apply, if_neg hne]
    exact hholder
  · intro id holder hholder
    have hholder' : holderOf id (s.log ++ [.resolved row i cause]) = some holder := hholder
    rw [holderOf_append, Entry.apply] at hholder'
    by_cases hidrow : row.id = id
    · rw [if_pos hidrow] at hholder'
      cases hholder'
      exact ⟨_, (hget id).trans (if_pos (hidrow.symm.trans hid)), rfl, rfl⟩
    · rw [if_neg hidrow] at hholder'
      obtain ⟨r, hr, hresolved⟩ := h.closed id holder hholder'
      refine ⟨r, (hget id).trans ((if_neg ?_).trans hr), hresolved⟩
      intro heq
      exact hidrow (hid.trans heq.symm)
  · exact h.busy
  · exact h.alone
  · exact h.parent
  · intro id hmem
    have hold : Entry.resumed id ∈ s.log := by
      rcases List.mem_append.mp hmem with hold | hnew
      · exact hold
      · cases List.mem_singleton.mp hnew
    by_cases hidrow : id = linkId
    · subst hidrow
      have hdead := h.dead_of_unresolved hrow hunresolved hold
      exact ⟨_, (hget id).trans (if_pos rfl), .inr (.inr hdead)⟩
    · obtain ⟨r, hr, hspent⟩ := h.spent id hold
      exact ⟨r, (hget id).trans ((if_neg hidrow).trans hr), hspent⟩
  · intro id
    show (s.log ++ [Entry.resolved row i cause]).count (.resumed id) ≤ 1
    rw [List.count_append]
    have hzero : List.count (Entry.resumed id) [Entry.resolved row i cause] = 0 := rfl
    rw [hzero]
    exact h.counted id
  · intro id
    refine guarded_append.mpr ⟨h.fits id, ?_, trivial⟩
    intro heq
    show holderOf id s.log = none
    rw [← heq, hid]
    exact hnone
  · intro r j c hmem
    rcases List.mem_append.mp hmem with hold | hnew
    · exact h.right r j c hold
    · cases List.mem_singleton.mp hnew
      exact hright

variable {resolver : Resolver}

theorem RaceInv.select (h : RaceInv s) (i : Nat) (hlink : s.links.get? linkId = some link)
    (hselects : resolver.selects now link = true) :
    RaceInv (s.setWorker i (.selected resolver link)) := by
  refine h.setWorker ?_ ?_ ?_ ?_ ?_ fun linkId hmem => h.spent_setWorker i rfl rfl hmem
  · intro link' heq
    obtain rfl := Option.some.inj heq
    rw [← (Table.get?_eq_some.mp hlink).2] at hlink
    exact ⟨link, hlink, rfl⟩
  · intro event link' heq
    cases heq
    simp only [Resolver.selects, isWakeCandidate, Bool.and_eq_true] at hselects
    exact hselects.2
  · intro link failed hw
    cases hw
  · intro p hp
    cases hp
  · intro link p hw
    cases hw

theorem RaceInv.take (h : RaceInv s) {holder : Holder}
    (hselected : s.worker i = .selected resolver link)
    (hholder : holderOf link.id s.log = some holder) (hworker : holder.worker = i)
    (hdead : ∀ row, s.links.get? link.id = some row → .resumed link.id ∈ s.log →
      s.status row.parentInstanceId ≠ some .waiting ∧
        ∀ j, (s.worker j).advances ≠ some row.parentInstanceId) :
    RaceInv (s.setWorker i (.claimed resolver link)) := by
  have hknows : s.Knows link := h.known i link (by rw [hselected]; rfl)
  refine h.setWorker ?_ ?_ ?_ ?_ ?_ ?_
  · intro link' heq
    cases heq
    exact hknows
  · intro event link' heq
    cases heq
  · intro link' failed heq
    cases heq
    exact ⟨holder, hholder, hworker, fun hfalse => by cases hfalse⟩
  · intro p hp
    cases hp
  · intro link' p heq
    cases heq
  · intro linkId hmem
    by_cases hid : link.id = linkId
    · subst hid
      obtain ⟨row, hrow, _⟩ := hknows
      obtain ⟨hstatus, hnone⟩ := hdead row hrow hmem
      refine ⟨row, hrow, .inr (.inr ⟨hstatus, ?_⟩)⟩
      intro k hk
      rw [RaceWorld.worker_setWorker] at hk
      split at hk
      · cases hk
      · exact hnone k hk
    · obtain ⟨row, hrow, hspent⟩ := h.spent_setWorker i (w := .idle) rfl rfl hmem
      refine ⟨row, hrow, ?_⟩
      rcases hspent with ⟨j, link', p, hj, hid'⟩ | ⟨hresolved, hfree⟩ | ⟨hstatus, hnone⟩
      · refine .inl ⟨j, link', p, ?_, hid'⟩
        rw [RaceWorld.worker_setWorker] at hj ⊢
        split at hj
        · cases hj
        · rename_i hji
          rw [if_neg hji]
          exact hj
      · refine .inr (.inl ⟨hresolved, ?_⟩)
        intro k link' failed hk
        rw [RaceWorld.worker_setWorker] at hk
        split at hk
        · cases hk
          exact hid
        · rename_i hki
          refine hfree k link' failed ?_
          rw [RaceWorld.worker_setWorker, if_neg hki]
          exact hk
      · refine .inr (.inr ⟨hstatus, ?_⟩)
        intro k hk
        rw [RaceWorld.worker_setWorker] at hk
        split at hk
        · cases hk
        · rename_i hki
          refine hnone k ?_
          rw [RaceWorld.worker_setWorker, if_neg hki]
          exact hk

theorem Resolver.claims_id
    (h : resolver.claims linkId now row = true) : row.id = linkId ∧ row.resolvedAt = none := by
  cases resolver with
  | wake event =>
    simp only [Resolver.claims, isWakeClaimable, Bool.and_eq_true, beq_iff_eq,
      Option.isNone_iff_eq_none] at h
    exact h.1
  | sweep =>
    simp only [Resolver.claims, isTimeoutClaimable, Bool.and_eq_true, beq_iff_eq,
      Option.isNone_iff_eq_none] at h
    exact h.1

/-- A match is a match of the columns that nobody writes. -/
theorem exists_status_of_isWaitMatch {event : BookingEvent}
    (h : isWaitMatch event link = true) (hconfig : row.config = link.config) :
    ∀ statuses, row.entityTerminalStatuses = some statuses → statuses ≠ [] →
      ∃ status ∈ statuses, event.newStatus = some status := by
  intro statuses hstatuses hne
  have hlink : link.entityTerminalStatuses = some statuses := by
    rw [← hstatuses]
    exact (congrArg LinkRow.entityTerminalStatuses hconfig).symm
  unfold isWaitMatch at h
  rw [hlink, Option.getD_some] at h
  cases hnew : event.newStatus with
  | none =>
    rw [hnew] at h
    cases h
  | some status =>
    simp only [hnew, Bool.or_eq_true, List.isEmpty_iff, hne, false_or, List.contains_iff_mem] at h
    exact ⟨status, h, rfl⟩

theorem RaceInv.claim (h : RaceInv s)
    (hselected : s.worker i = .selected resolver link) (hrow : s.links.get? link.id = some row)
    (hclaims : resolver.claims link.id now row = true) :
    RaceInv (({ s with links := resolver.claim s.links link.id now }.setWorker i
      (.claimed resolver link)).append (.resolved row i (resolver.cause now))) := by
  obtain ⟨hid, hunresolved⟩ := Resolver.claims_id hclaims
  have hright : (resolver.cause now).IsRight row := by
    cases resolver with
    | wake event =>
      simp only [Resolver.claims, isWakeClaimable, Bool.and_eq_true, Bool.not_eq_true'] at hclaims
      refine ⟨by simp [LinkRow.IsExpired, hclaims.2], ?_⟩
      obtain ⟨row', hrow', hconfig⟩ := h.known i link (by rw [hselected]; rfl)
      rw [hrow] at hrow'
      cases hrow'
      exact exists_status_of_isWaitMatch (h.matched i event link hselected) hconfig
    | sweep =>
      simp only [Resolver.claims, isTimeoutClaimable, Bool.and_eq_true] at hclaims
      exact hclaims.2
  have hresolve : RaceInv ({ s with links := resolver.claim s.links link.id now }.append
      (.resolved row i (resolver.cause now))) := by
    have hlinks : resolver.claim s.links link.id now = s.links.update (resolver.claims link.id now)
        (resolveAs now (resolver.cause now).kind) := by
      cases resolver <;> rfl
    rw [hlinks]
    exact h.resolveRow (fun r hr => (Resolver.claims_id hr).1) hrow hclaims hunresolved hright
  have hholder : holderOf link.id (s.log ++ [.resolved row i (resolver.cause now)])
      = some ⟨i, (resolver.cause now).kind, false⟩ := by
    rw [holderOf_append, Entry.apply, if_pos hid]
  refine hresolve.take hselected hholder rfl ?_
  intro row' hrow' hmem
  have hold : Entry.resumed link.id ∈ s.log := by
    rcases List.mem_append.mp hmem with hold | hnew
    · exact hold
    · cases List.mem_singleton.mp hnew
  have hparent : row'.parentInstanceId = row.parentInstanceId := by
    obtain ⟨r, hr, hconfig⟩ := hresolve.known i link (by
      show (s.worker i).snapshot = _
      rw [hselected]
      rfl)
    obtain ⟨r', hr', hconfig'⟩ := h.known i link (by rw [hselected]; rfl)
    rw [hrow'] at hr
    rw [hrow] at hr'
    cases hr
    cases hr'
    have hsame := congrArg LinkRow.parentInstanceId (hconfig.trans hconfig'.symm)
    exact hsame
  rw [hparent]
  exact h.dead_of_unresolved hrow hunresolved hold

theorem RaceInv.logFailed (h : RaceInv s) (linkId i : Nat) :
    RaceInv (s.append (.failed linkId i)) := by
  have hholder : ∀ id, holderOf id (s.log ++ [.failed linkId i]) =
      if linkId = id then (holderOf id s.log).map fun h => { h with failed := true }
      else holderOf id s.log := fun id => holderOf_append id s.log _
  constructor
  · exact h.known
  · exact h.matched
  · intro j link failed hj
    obtain ⟨holder, hh, hworker, hfailed⟩ := h.held j link failed hj
    by_cases hid : linkId = link.id
    · refine ⟨{ holder with failed := true }, ?_, hworker, fun _ => rfl⟩
      exact (hholder link.id).trans ((if_pos hid).trans (by rw [hh, Option.map_some]))
    · exact ⟨holder, (hholder link.id).trans ((if_neg hid).trans hh), hworker, hfailed⟩
  · intro id holder hh
    have hh' := (hholder id).symm.trans hh
    split at hh'
    · obtain ⟨holder', hh'', rfl⟩ := Option.map_eq_some_iff.mp hh'
      exact h.closed id holder' hh''
    · exact h.closed id holder hh'
  · exact h.busy
  · exact h.alone
  · exact h.parent
  · intro id hmem
    rcases List.mem_append.mp hmem with hold | hnew
    · exact h.spent id hold
    · cases List.mem_singleton.mp hnew
  · intro id
    show (s.log ++ [Entry.failed linkId i]).count (.resumed id) ≤ 1
    rw [List.count_append]
    exact h.counted id
  · intro id
    exact guarded_append.mpr ⟨h.fits id, trivial, trivial⟩
  · intro row j cause hmem
    rcases List.mem_append.mp hmem with hold | hnew
    · exact h.right row j cause hold
    · cases List.mem_singleton.mp hnew

theorem RaceInv.fail (h : RaceInv s) (hholding : (s.worker i).holding = some (link, false))
    (hknows : s.Knows link) :
    RaceInv ((s.setWorker i (.failing link)).append (.failed link.id i)) := by
  have hlog := h.logFailed link.id i
  refine hlog.setWorker ?_ ?_ ?_ ?_ ?_ ?_
  · intro link' heq
    cases heq
    exact hknows
  · intro event link' heq
    cases heq
  · intro link' failed heq
    cases heq
    obtain ⟨holder, hholder, hworker, _⟩ := h.held i link false hholding
    refine ⟨{ holder with failed := true }, ?_, hworker, fun _ => rfl⟩
    show holderOf link.id (s.log ++ [.failed link.id i]) = _
    rw [holderOf_append, Entry.apply, if_pos rfl, hholder, Option.map_some]
  · intro p hp
    cases hp
  · intro link' p heq
    cases heq
  · intro linkId hmem
    obtain ⟨row, hrow, hspent⟩ := hlog.spent linkId hmem
    refine ⟨row, hrow, ?_⟩
    -- What the worker advanced is dead; what it only holds is as it was.
    rcases hspent with ⟨j, link', p, hj, hid⟩ | ⟨hresolved, hfree⟩ | ⟨hstatus, hnone⟩
    · by_cases hji : j = i
      · subst hji
        have hj' : s.worker j = .advancing (some link') p := hj
        have hadvances : (s.worker j).advances = some p := by
          rw [hj']
          rfl
        have hlink' : link = link' := by
          rw [hj'] at hholding
          cases hholding
          rfl
        have hp : p = row.parentInstanceId := by
          obtain ⟨r, hr, hconfig⟩ := hknows
          rw [hlink', hid] at hr
          have hrow' : s.links.get? linkId = some row := hrow
          rw [hrow'] at hr
          cases hr
          rw [h.parent j link' p hj', ← hlink']
          exact (congrArg LinkRow.parentInstanceId hconfig).symm
        subst hp
        refine .inr (.inr ⟨h.busy j _ hadvances, ?_⟩)
        intro k hk
        rw [RaceWorld.worker_setWorker] at hk
        split at hk
        · cases hk
        · rename_i hkj
          exact hkj (h.alone k j _ hk hadvances)
      · refine .inl ⟨j, link', p, ?_, hid⟩
        rw [RaceWorld.worker_setWorker, if_neg hji]
        exact hj
    · refine .inr (.inl ⟨hresolved, ?_⟩)
      intro k link' failed hk
      rw [RaceWorld.worker_setWorker] at hk
      split at hk
      · cases hk
        exact hfree i link false hholding
      · exact hfree k link' failed hk
    · refine .inr (.inr ⟨hstatus, ?_⟩)
      intro k hk
      rw [RaceWorld.worker_setWorker] at hk
      split at hk
      · cases hk
      · exact hnone k hk

variable {p : Nat}

/-- An instance that nobody advances, or that does not wait afterwards, is written. -/
theorem RaceInv.setStatus (h : RaceInv s) {status : InstanceStatus}
    (hfree : status = .waiting → ∀ i, (s.worker i).advances ≠ some p)
    (hspent : ∀ linkId, .resumed linkId ∈ s.log → ∃ row, s.links.get? linkId = some row ∧
      (s.setStatus p status).IsSpent linkId row) : RaceInv (s.setStatus p status) where
  known := h.known
  matched := h.matched
  held := h.held
  closed := h.closed
  busy i q hi := by
    have hq := h.busy i q hi
    show (if q = p then (s.status q).map fun _ => status else s.status q) ≠ some .waiting
    split
    · rename_i hqp
      subst hqp
      intro hwaiting
      obtain ⟨_, _, hstatus⟩ := Option.map_eq_some_iff.mp hwaiting
      exact hfree hstatus i hi
    · exact hq
  alone := h.alone
  parent := h.parent
  spent := hspent
  counted := h.counted
  fits := h.fits
  right := h.right

theorem RaceInv.setStatus_of_ne (h : RaceInv s) {status : InstanceStatus}
    (hne : status ≠ .waiting) : RaceInv (s.setStatus p status) := by
  refine h.setStatus (fun heq => absurd heq hne) fun linkId hmem => ?_
  obtain ⟨row, hrow, hspent⟩ := h.spent linkId hmem
  refine ⟨row, hrow, ?_⟩
  rcases hspent with hfirst | hsecond | ⟨hstatus, hnone⟩
  · exact .inl hfirst
  · exact .inr (.inl hsecond)
  · refine .inr (.inr ⟨?_, hnone⟩)
    show (if row.parentInstanceId = p then (s.status row.parentInstanceId).map fun _ => status
      else s.status row.parentInstanceId) ≠ some .waiting
    split
    · intro hwaiting
      obtain ⟨_, _, heq⟩ := Option.map_eq_some_iff.mp hwaiting
      exact hne heq
    · exact hstatus

theorem RaceInv.advance (h : RaceInv s) {link : Option LinkRow}
    (hholding : (s.worker i).holding = link.map fun link => (link, false))
    (hadvances : (s.worker i).advances = none)
    (hlink : ∀ l, link = some l → s.Knows l ∧ p = l.parentInstanceId)
    (hwaiting : s.status p = some .waiting) :
    RaceInv ((s.setStatus p .active).setWorker i (.advancing link p)) := by
  have hactive : (s.setStatus p .active).status p = some .active := by
    show (if p = p then (s.status p).map fun _ => InstanceStatus.active else s.status p) = _
    rw [if_pos rfl, hwaiting, Option.map_some]
  have hset : RaceInv (s.setStatus p .active) := h.setStatus_of_ne (by decide)
  refine hset.setWorker ?_ ?_ ?_ ?_ ?_ ?_
  · intro l hl
    exact (hlink l hl).1
  · intro event l heq
    cases heq
  · intro l failed heq
    have hold : (s.worker i).holding = some (l, failed) := hholding.trans heq
    exact h.held i l failed hold
  · intro q hq
    obtain rfl := Option.some.inj hq
    refine ⟨by rw [hactive]; decide, ?_⟩
    intro j _ hj
    exact h.busy j p hj hwaiting
  · intro l q heq
    cases heq
    exact (hlink l rfl).2
  · intro linkId hmem
    obtain ⟨row, hrow, hspent⟩ := h.spent linkId hmem
    refine ⟨row, hrow, ?_⟩
    rcases hspent with ⟨j, l, q, hj, hid⟩ | ⟨hresolved, hfree⟩ | ⟨hstatus, hnone⟩
    · refine .inl ⟨j, l, q, ?_, hid⟩
      rw [RaceWorld.worker_setWorker, if_neg]
      · exact hj
      · intro hji
        subst hji
        rw [hj] at hadvances
        cases hadvances
    · refine .inr (.inl ⟨hresolved, ?_⟩)
      intro k l failed hk
      rw [RaceWorld.worker_setWorker] at hk
      split at hk
      · exact hfree i l failed (hholding.trans hk)
      · exact hfree k l failed hk
    · -- A dead instance is another one than the one that waits.
      have hne : row.parentInstanceId ≠ p := by
        intro heq
        rw [heq] at hstatus
        exact hstatus hwaiting
      refine .inr (.inr ⟨?_, ?_⟩)
      · show (if row.parentInstanceId = p then _ else s.status row.parentInstanceId) ≠ _
        rw [if_neg hne]
        exact hstatus
      · intro k hk
        rw [RaceWorld.worker_setWorker] at hk
        split at hk
        · exact hne (Option.some.inj hk).symm
        · exact hnone k hk

/-- The parent is resumed on account of a link, for the first time. -/
theorem RaceInv.resume (h : RaceInv s) (hclaimed : s.worker i = .claimed resolver link)
    (hwaiting : s.status link.parentInstanceId = some .waiting) :
    RaceInv (((s.setStatus link.parentInstanceId .active).setWorker i
      (.advancing (some link) link.parentInstanceId)).append (.resumed link.id)) := by
  have hholding : (s.worker i).holding = some (link, false) := by
    rw [hclaimed]
    rfl
  have hknows : s.Knows link := h.known i link (by rw [hclaimed]; rfl)
  have hfirst : Entry.resumed link.id ∉ s.log := by
    intro hmem
    obtain ⟨row, hrow, hspent⟩ := h.spent link.id hmem
    rcases hspent with ⟨j, l, q, hj, hid⟩ | ⟨_, hfree⟩ | ⟨hstatus, _⟩
    · have hjholding : (s.worker j).holding = some (l, false) := by
        rw [hj]
        rfl
      obtain rfl := h.holding_unique hjholding hholding hid
      rw [hclaimed] at hj
      cases hj
    · exact hfree i link false hholding rfl
    · obtain ⟨row', hrow', hconfig⟩ := hknows
      rw [hrow] at hrow'
      cases hrow'
      have hparent : row.parentInstanceId = link.parentInstanceId := by
        have hsame := congrArg LinkRow.parentInstanceId hconfig
        exact hsame
      rw [hparent] at hstatus
      exact hstatus hwaiting
  have hadvance : RaceInv ((s.setStatus link.parentInstanceId .active).setWorker i
      (.advancing (some link) link.parentInstanceId)) := by
    refine h.advance hholding (by rw [hclaimed]; rfl) ?_ hwaiting
    intro l hl
    cases hl
    exact ⟨hknows, rfl⟩
  have hholder : ∀ id, holderOf id (s.log ++ [.resumed link.id]) = holderOf id s.log :=
    fun id => holderOf_append id s.log _
  constructor
  · exact hadvance.known
  · exact hadvance.matched
  · intro j l failed hj
    obtain ⟨holder, hh, hrest⟩ := hadvance.held j l failed hj
    exact ⟨holder, (hholder l.id).trans hh, hrest⟩
  · intro id holder hh
    exact hadvance.closed id holder ((hholder id).symm.trans hh)
  · exact hadvance.busy
  · exact hadvance.alone
  · exact hadvance.parent
  · intro id hmem
    rcases List.mem_append.mp hmem with hold | hnew
    · exact hadvance.spent id hold
    · cases List.mem_singleton.mp hnew
      obtain ⟨row, hrow, _⟩ := hknows
      refine ⟨row, hrow, .inl ⟨i, link, link.parentInstanceId, ?_, rfl⟩⟩
      exact if_pos rfl
  · intro id
    show (s.log ++ [Entry.resumed link.id]).count (.resumed id) ≤ 1
    rw [List.count_append]
    by_cases hid : link.id = id
    · subst hid
      have hzero : s.log.count (.resumed link.id) = 0 := List.count_eq_zero.mpr hfirst
      have hone : [Entry.resumed link.id].count (.resumed link.id) = 1 :=
        List.count_singleton_self
      exact Nat.le_of_eq (congrArg₂ (· + ·) hzero hone)
    · have hzero : List.count (Entry.resumed id) [Entry.resumed link.id] = 0 := by
        rw [List.count_eq_zero]
        intro hmem
        cases List.mem_singleton.mp hmem
        exact hid rfl
      rw [hzero]
      exact h.counted id
  · intro id
    exact guarded_append.mpr ⟨hadvance.fits id, trivial, trivial⟩
  · intro row j cause hmem
    rcases List.mem_append.mp hmem with hold | hnew
    · exact hadvance.right row j cause hold
    · cases List.mem_singleton.mp hnew

theorem RaceInv.returns (h : RaceInv s) (hadvances : (s.worker i).advances = some p)
    (status : InstanceStatus) : RaceInv ((s.setStatus p status).setWorker i .idle) := by
  have hrest := h.rest i
  refine hrest.setStatus ?_ ?_
  · intro _ j hj
    rw [RaceWorld.worker_setWorker] at hj
    split at hj
    · cases hj
    · rename_i hji
      exact hji (h.alone j i p hj hadvances)
  · intro linkId hmem
    obtain ⟨row, hrow, hspent⟩ := h.spent linkId hmem
    refine ⟨row, hrow, ?_⟩
    rcases hspent with ⟨j, l, q, hj, hid⟩ | ⟨hresolved, hfree⟩ | ⟨hstatus, hdead⟩
    · by_cases hji : j = i
      · subst hji
        have hjholding : (s.worker j).holding = some (l, false) := by
          rw [hj]
          rfl
        obtain ⟨r, hr, hresolved⟩ := h.resolved hjholding
        rw [hid, hrow] at hr
        cases hr
        refine .inr (.inl ⟨hresolved, ?_⟩)
        intro k l' failed hk hid'
        have hk' : ((s.setWorker j .idle).worker k).holding = some (l', failed) := hk
        rw [RaceWorld.worker_setWorker] at hk'
        split at hk'
        · cases hk'
        · rename_i hkj
          exact hkj (h.holding_unique hk' hjholding (hid'.trans hid.symm))
      · refine .inl ⟨j, l, q, ?_, hid⟩
        exact (if_neg hji).trans hj
    · refine .inr (.inl ⟨hresolved, ?_⟩)
      intro k l failed hk
      have hk' : ((s.setWorker i .idle).worker k).holding = some (l, failed) := hk
      rw [RaceWorld.worker_setWorker] at hk'
      split at hk'
      · cases hk'
      · exact hfree k l failed hk'
    · -- The instance that is written was advanced, so it is not the dead one.
      have hp : row.parentInstanceId ≠ p := by
        intro heq
        rw [heq] at hdead
        exact hdead i hadvances
      refine .inr (.inr ⟨?_, ?_⟩)
      · show (if row.parentInstanceId = p then _ else s.status row.parentInstanceId) ≠ _
        rw [if_neg hp]
        exact hstatus
      · intro k hk
        have hk' : ((s.setWorker i .idle).worker k).advances = some row.parentInstanceId := hk
        rw [RaceWorld.worker_setWorker] at hk'
        split at hk'
        · cases hk'
        · exact hdead k hk'

theorem RaceInv.reopen (h : RaceInv s) (hfailing : s.worker i = .failing link) :
    RaceInv (({ s with links := Workflow.unclaim s.links link.id }.setWorker i .idle).append
      (.reopened link.id i)) := by
  have hholding : (s.worker i).holding = some (link, true) := by
    rw [hfailing]
    rfl
  obtain ⟨holder, hholder, hworker, hfailed⟩ := h.held i link true hholding
  have hrest := h.rest i
  have hother : ∀ j l failed, ((s.setWorker i .idle).worker j).holding = some (l, failed) →
      l.id ≠ link.id := by
    intro j l failed hj hid
    rw [RaceWorld.worker_setWorker] at hj
    split at hj
    · cases hj
    · rename_i hji
      exact hji (h.holding_unique hj hholding hid)
  have hget : ∀ id, (Workflow.unclaim s.links link.id).get? id =
      (s.links.get? id).map fun row =>
        if id = link.id then { row with resolvedAt := none, resolutionKind := none } else row := by
    intro id
    unfold Workflow.unclaim
    rw [Table.get?_update]
    cases hrow : s.links.get? id with
    | none => rfl
    | some row =>
      have hkey : row.id = id := (Table.get?_eq_some.mp hrow).2
      subst hkey
      rw [Option.map_some, Option.map_some, Table.updated]
      by_cases hid : row.id = link.id
      · rw [if_pos (beq_iff_eq.mpr hid), if_pos hid]
      · rw [if_neg (by simpa using hid), if_neg hid]
  have hholderOf : ∀ id, holderOf id (s.log ++ [.reopened link.id i]) =
      if link.id = id then none else holderOf id s.log := fun id => holderOf_append id s.log _
  constructor
  · intro j l hj
    obtain ⟨row, hrow, hconfig⟩ := hrest.known j l hj
    refine ⟨_, (hget l.id).trans (by rw [show s.links.get? l.id = some row from hrow, Option.map_some]),
      ?_⟩
    split <;> exact hconfig
  · exact hrest.matched
  · intro j l failed hj
    obtain ⟨holder', hh, hrest'⟩ := hrest.held j l failed hj
    refine ⟨holder', ?_, hrest'⟩
    exact (hholderOf l.id).trans ((if_neg (Ne.symm (hother j l failed hj))).trans hh)
  · intro id holder' hh
    have hh' := (hholderOf id).symm.trans hh
    split at hh'
    · cases hh'
    · rename_i hne
      obtain ⟨row, hrow, hresolved⟩ := h.closed id holder' hh'
      refine ⟨row, ?_, hresolved⟩
      exact (hget id).trans (by rw [hrow, Option.map_some, if_neg (Ne.symm hne)])
  · exact hrest.busy
  · exact hrest.alone
  · exact hrest.parent
  · intro id hmem
    have hold : Entry.resumed id ∈ s.log := by
      rcases List.mem_append.mp hmem with hold | hnew
      · exact hold
      · cases List.mem_singleton.mp hnew
    obtain ⟨row, hrow, hspent⟩ := hrest.spent id hold
    have hrow' : s.links.get? id = some row := hrow
    refine ⟨_, (hget id).trans (by rw [hrow', Option.map_some]), ?_⟩
    by_cases hid : id = link.id
    · -- The link was held and not advanced, so it is spent because its parent is dead.
      subst hid
      obtain ⟨row', hrow'', hspent'⟩ := h.spent link.id hold
      rw [hrow'] at hrow''
      cases hrow''
      rcases hspent' with ⟨j, l, q, hj, hid⟩ | ⟨_, hfree⟩ | ⟨hstatus, hnone⟩
      · have hjholding : (s.worker j).holding = some (l, false) := by
          rw [hj]
          rfl
        obtain rfl := h.holding_unique hjholding hholding hid
        rw [hfailing] at hj
        cases hj
      · exact absurd rfl (hfree i link true hholding)
      · rw [if_pos rfl]
        refine .inr (.inr ⟨hstatus, ?_⟩)
        intro k hk
        have hk' : ((s.setWorker i .idle).worker k).advances = some row.parentInstanceId := hk
        rw [RaceWorld.worker_setWorker] at hk'
        split at hk'
        · cases hk'
        · exact hnone k hk'
    · rw [if_neg hid]
      exact hspent
  · intro id
    show (s.log ++ [Entry.reopened link.id i]).count (.resumed id) ≤ 1
    rw [List.count_append]
    exact h.counted id
  · intro id
    refine guarded_append.mpr ⟨h.fits id, ?_, trivial⟩
    intro heq
    subst heq
    exact ⟨holder, hholder, hworker, hfailed rfl⟩
  · intro row j cause hmem
    rcases List.mem_append.mp hmem with hold | hnew
    · exact h.right row j cause hold
    · cases List.mem_singleton.mp hnew

theorem RaceInv.cancel (h : RaceInv s) (i p : Nat) :
    RaceInv ((s.setStatus p .cancelled).setWorker i (.cancelling p)) := by
  have hset : RaceInv (s.setStatus p .cancelled) := h.setStatus_of_ne (by decide)
  refine hset.setWorker ?_ ?_ ?_ ?_ ?_ fun linkId hmem => hset.spent_setWorker i rfl rfl hmem
  · intro link hw
    cases hw
  · intro event link hw
    cases hw
  · intro link failed hw
    cases hw
  · intro q hw
    cases hw
  · intro link q hw
    cases hw

theorem RaceInv.step (h : RaceInv s) (action : Action) : RaceInv (s.step action) := by
  cases action with
  | select i resolver linkId now =>
    simp only [RaceWorld.step]
    split
    · split
      · exact h.select i ‹_› ‹_›
      · exact h
    · exact h
  | claim i now =>
    simp only [RaceWorld.step]
    split
    · split
      · split
        · exact h.claim ‹_› ‹_› ‹_›
        · exact h.rest i
      · exact h.rest i
    · exact h
  | unread i =>
    simp only [RaceWorld.step]
    split
    · rename_i hclaimed
      exact h.fail (by rw [hclaimed]; rfl) (h.known i _ (by rw [hclaimed]; rfl))
    · exact h
  | resume i =>
    simp only [RaceWorld.step]
    split
    · split
      · rename_i hresumes
        exact h.resume ‹_› hresumes.2
      · exact h.rest i
    · exact h
  | call i instanceId =>
    simp only [RaceWorld.step]
    split
    · rename_i hidle
      split
      · rename_i hwaiting
        refine h.advance (by rw [hidle]; rfl) (by rw [hidle]; rfl) ?_ hwaiting
        intro l hl
        cases hl
      · exact h
    · exact h
  | return' i write =>
    simp only [RaceWorld.step]
    split
    · rename_i hadvancing
      split
      · exact h.returns (by rw [hadvancing]; rfl) _
      · exact h.rest i
    · exact h
  | throw' i =>
    simp only [RaceWorld.step]
    split
    · rename_i hadvancing
      exact h.fail (by rw [hadvancing]; rfl) (h.known i _ (by rw [hadvancing]; rfl))
    · exact h.rest i
    · exact h
  | unclaim i =>
    simp only [RaceWorld.step]
    split
    · exact h.reopen ‹_›
    · exact h
  | cancel i instanceId =>
    simp only [RaceWorld.step]
    split
    · split
      · exact h.cancel i instanceId
      · exact h
    · exact h
  | resolve i linkId now =>
    simp only [RaceWorld.step]
    split
    · rename_i row _ hrow
      split
      · rename_i hopen
        have hid := (Table.get?_eq_some.mp hrow).2
        have hright : (Cause.parentCancelled now).IsRight row := trivial
        refine h.resolveRow ?_ hrow ?_ hopen.2 hright
        · intro r hr
          simp only [Bool.and_eq_true, beq_iff_eq] at hr
          exact hr.1
        · simp only [Bool.and_eq_true, beq_iff_eq, Option.isNone_iff_eq_none]
          exact ⟨hid, hopen.2⟩
      · exact h
    · exact h
  | stop i => exact h.rest i

theorem RaceInv.law (h : RaceInv s) : ResolvedOnce s where
  once before row i cause after hlog := by
    have hfits := h.fits row.id
    rw [hlog] at hfits
    exact (guarded_append.mp hfits).2.1 rfl
  takenBack before linkId i after hlog := by
    have hfits := h.fits linkId
    rw [hlog] at hfits
    exact (guarded_append.mp hfits).2.1 rfl
  advancedOnce := h.counted
  cause := h.right
  row row hrow holder hholder := by
    obtain ⟨row', hrow', hresolved⟩ := h.closed row.id holder hholder
    have hget : s.links.get? row.id = some row := Table.get?_of_mem hrow
    rw [hget] at hrow'
    cases hrow'
    exact hresolved

end

/-! ## The law of interleavings -/

/-- In every interleaving every link is resolved by one resolver at a time, and its parent is
resumed once. -/
theorem resolvedOnce (links : Table LinkRow) (status : Nat → Option InstanceStatus)
    (actions : List Action) :
    ResolvedOnce (run RaceWorld.step (RaceWorld.start links status) actions) := by
  have hinv : RaceInv (run RaceWorld.step (RaceWorld.start links status) actions) :=
    run_invariant (I := RaceInv) (fun s action h => h.step action) (.start links status) actions
  exact hinv.law

/-- The wake handler resolves a link, cannot resume the parent and takes the claim back; then the
time is up, and the sweeper resolves it. -/
theorem resolvedTwice :
    ¬ ∀ links status actions,
      ResolvedByOne (run RaceWorld.step (RaceWorld.start links status) actions) := by
  intro hlaw
  let row : LinkRow :=
    { id := 1, parentInstanceId := 1, childEntityId := 7, waitTimeoutAt := some 10 }
  let event : BookingEvent := { type := .created, bookingId := 7 }
  have hone := hlaw (Table.empty.put row) (fun _ => some .waiting)
    [.select 0 (.wake event) 1 5, .claim 0 5, .resume 0, .throw' 0, .unclaim 0,
      .select 1 .sweep 1 10, .claim 1 10]
    row row 0 1 (.event event 5) (.timeout 10) (by decide) (by decide) rfl
  cases hone

end Prequest.Workflow
