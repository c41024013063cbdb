import Prequest.DailyList.Rows
import Prequest.Lib.Run

/-!
# Changes after a list was sent

A line on a list that was sent is locked. A trigger flags a locked line when one of the columns that
it watches changes, the desk phones the vendor about the flagged lines, and `confirmPhoned` takes
the flag back.

* `followupLaw_iff`: the desk is told of what the vendor must know exactly when every change of what
  is printed is one that the trigger sees, and no status is inferred of an untouched line.
-/

namespace Prequest.DailyList

open Prequest.Lib

/-- A row of `order_line_items` with its other columns. -/
structure FollowupLine extends Line where
  dietaryNotes : Option String := none
  requesterNotes : Option String := none
  fulfillmentNotes : Option String := none
  serviceWindowStartAt : Option Int := none
  serviceWindowEndAt : Option Int := none
  unitPrice : Option Int := none
  lineTotal : Option Int := none
  requiresPhoneFollowup : Bool := false
  deskConfirmedPhonedAt : Option Int := none
  deriving DecidableEq, Repr

/-- `v_changed`. -/
def watchedChanged (new old : FollowupLine) : Bool :=
  new.catalogItemId != old.catalogItemId || new.menuItemId != old.menuItemId ||
    new.vendorId != old.vendorId || new.quantity != old.quantity ||
    new.dietaryNotes != old.dietaryNotes || new.fulfillmentStatus != old.fulfillmentStatus ||
    new.fulfillmentNotes != old.fulfillmentNotes ||
    new.serviceWindowStartAt != old.serviceWindowStartAt ||
    new.serviceWindowEndAt != old.serviceWindowEndAt || new.unitPrice != old.unitPrice ||
    new.lineTotal != old.lineTotal

/-- `fn_daglijst_post_cutoff_followup`, before an update. -/
def postCutoffFollowup (new old : FollowupLine) : FollowupLine :=
  if new.lockedAt.isNone then new
  else if watchedChanged new old && !new.requiresPhoneFollowup then
    { new with requiresPhoneFollowup := true, deskConfirmedPhonedAt := none }
  else new

/-- The row that an update of the columns of a line writes. With `raises` it also sets the flag, as
a decline of the vendor does. -/
def FollowupLine.assign (l columns : FollowupLine) (raises : Bool) : FollowupLine :=
  { columns with
    id := l.id
    orderId := l.orderId
    lockedAt := l.lockedAt
    dailyListId := l.dailyListId
    requiresPhoneFollowup := l.requiresPhoneFollowup || raises
    deskConfirmedPhonedAt := l.deskConfirmedPhonedAt }

/-- A line of the payload of `assemble`. -/
structure DaglijstLine where
  catalogItemId : Nat
  quantity : Int
  dietaryNotes : Option String
  requesterNotes : Option String
  deliveryTime : Option Int
  deliveryWindow : Option (Int × Int)
  deliveryLocationId : Option Nat
  headcount : Option Int
  deriving DecidableEq, Repr

/-- What `assemble` prints for the line on the list of a bucket, if anything. -/
def printedLine (cfg : Config) (b : Bucket) (l : FollowupLine) (o : Order) : Option DaglijstLine :=
  if selects cfg b l.toLine o then some
    { catalogItemId := l.catalogItemId
      quantity := l.quantity
      dietaryNotes := l.dietaryNotes
      requesterNotes := l.requesterNotes
      deliveryTime := o.deliveryTime
      deliveryWindow := l.serviceWindowStartAt.bind fun s => l.serviceWindowEndAt.map fun e => (s, e)
      deliveryLocationId := o.deliveryLocationId
      headcount := o.headcount }
  else none

/-- The condition of the query of `listPostCutoffChanges`. -/
def isListed (now : Int) (l : FollowupLine) : Bool :=
  l.requiresPhoneFollowup && l.deskConfirmedPhonedAt.isNone &&
    l.serviceWindowStartAt.all fun t => decide (now - 86400 ≤ t)

inductive ConfirmPhonedResult where
  | confirmed (at_ : Int)
  | alreadyConfirmed (at_ : Int)
  | notFlagged
  deriving DecidableEq, Repr

def confirmPhoned (now : Int) (l : FollowupLine) : ConfirmPhonedResult × FollowupLine :=
  if l.requiresPhoneFollowup then
    (.confirmed now, postCutoffFollowup
      { l with requiresPhoneFollowup := false, deskConfirmedPhonedAt := some now } l)
  else match l.deskConfirmedPhonedAt with
    | some t => (.alreadyConfirmed t, l)
    | none => (.notFlagged, l)

/-- The two passes of `runOnce`. -/
def inferredStatus : FulfillmentStatus → Option FulfillmentStatus
  | .ordered => some .preparing
  | .preparing => some .delivered
  | _ => none

/-! ## Histories -/

inductive FollowupEvent where
  | editLine (columns : FollowupLine) (raises : Bool)
  | editOrder (order : Order)
  | inferStatus
  | confirmPhoned (now : Int)

/-- A locked line and its order, with what is remembered of the lock or the last confirmation. -/
structure FollowupState where
  line : FollowupLine
  order : Order
  /-- What was printed then. -/
  printed : Option DaglijstLine
  /-- Something else than an inferred status has changed since. -/
  touched : Bool
  /-- The line was confirmed, and no change flagged since. -/
  settled : Bool

def lockState (cfg : Config) (b : Bucket) (listId : Nat) (now : Int) (l : FollowupLine) (o : Order) :
    FollowupState :=
  let line := { l with lockedAt := some now, dailyListId := some listId }
  { line := line
    order := o
    printed := printedLine cfg b line o
    touched := false
    settled := !l.requiresPhoneFollowup && l.deskConfirmedPhonedAt.isSome }

def followupStep (cfg : Config) (b : Bucket) (s : FollowupState) : FollowupEvent → FollowupState
  | .editLine columns raises =>
      let line := postCutoffFollowup (s.line.assign columns raises) s.line
      { s with
        line := line
        touched := s.touched || decide (line ≠ s.line)
        settled := s.settled && !line.requiresPhoneFollowup }
  | .editOrder order => { s with order := order, touched := s.touched || decide (order ≠ s.order) }
  | .inferStatus =>
      match inferredStatus s.line.fulfillmentStatus with
      | some status =>
          let line := postCutoffFollowup { s.line with fulfillmentStatus := status } s.line
          { s with line := line, settled := s.settled && !line.requiresPhoneFollowup }
      | none => s
  | .confirmPhoned now =>
      match confirmPhoned now s.line with
      | (.confirmed _, line) =>
          { s with
            line := line
            printed := printedLine cfg b line s.order
            touched := false
            settled := true }
      | (_, line) => { s with line := line }

/-! ## The law -/

structure FollowupLaw (cfg : Config) (b : Bucket) (s : FollowupState) : Prop where
  locked : s.line.lockedAt ≠ none
  /-- Until the delivery is past, a line is listed when it would be printed in another way. -/
  listed : ∀ now, (∀ t, s.line.serviceWindowStartAt = some t → now ≤ t) →
    printedLine cfg b s.line s.order ≠ s.printed → isListed now s.line = true
  unlisted : s.touched = false → ∀ now, isListed now s.line = false
  confirmed : ∀ now, (∃ t, (confirmPhoned now s.line).1 = .alreadyConfirmed t) ↔ s.settled = true

def FollowupLine.IsOpen (l : FollowupLine) : Prop :=
  l.requiresPhoneFollowup = true ∧ l.deskConfirmedPhonedAt = none

/-- A change of what is printed changes a column that the trigger watches while the flag is down, or
the line is open already and stays so. A status is inferred of a flagged line or of one that
something else has changed. -/
def FollowupSafe (cfg : Config) (b : Bucket) (s : FollowupState) : FollowupEvent → Prop
  | .editLine columns raises =>
      let l := s.line.assign columns raises
      printedLine cfg b l s.order ≠ s.printed →
        l.IsOpen ∨ (watchedChanged l s.line = true ∧ l.requiresPhoneFollowup = false)
  | .editOrder order => printedLine cfg b s.line order ≠ s.printed → s.line.IsOpen
  | .inferStatus => inferredStatus s.line.fulfillmentStatus = none ∨
      s.line.requiresPhoneFollowup = true ∨ s.touched = true
  | .confirmPhoned _ => True

section

variable {cfg : Config} {b : Bucket} {s : FollowupState} {l new old : FollowupLine}

theorem isOpen_iff_listed : l.IsOpen ↔
    ∀ now, (∀ t, l.serviceWindowStartAt = some t → now ≤ t) → isListed now l = true := by
  unfold FollowupLine.IsOpen isListed
  constructor
  · rintro ⟨hflag, hconfirmed⟩ now hpast
    cases hstart : l.serviceWindowStartAt with
    | none => simp [hflag, hconfirmed]
    | some t =>
      have := hpast t hstart
      simp only [hflag, hconfirmed, Option.isNone_none, Option.all_some, Bool.true_and,
        decide_eq_true_eq]
      omega
  · intro h
    have hlisted := h (l.serviceWindowStartAt.getD 0) fun t ht => by rw [ht, Option.getD_some]
    simp only [Bool.and_eq_true, Option.isNone_iff_eq_none] at hlisted
    exact hlisted.1

theorem not_isOpen_iff : ¬l.IsOpen ↔ ∀ now, isListed now l = false := by
  constructor
  · intro h now
    rw [← Bool.not_eq_true]
    intro hlisted
    unfold isListed at hlisted
    simp only [Bool.and_eq_true, Option.isNone_iff_eq_none] at hlisted
    exact h hlisted.1
  · intro h hopen
    have hlisted := isOpen_iff_listed.mp hopen (l.serviceWindowStartAt.getD 0) fun t ht => by
      rw [ht, Option.getD_some]
    rw [h] at hlisted
    cases hlisted

theorem alreadyConfirmed_iff (now : Int) : (∃ t, (confirmPhoned now l).1 = .alreadyConfirmed t) ↔
    (!l.requiresPhoneFollowup && l.deskConfirmedPhonedAt.isSome) = true := by
  unfold confirmPhoned
  cases l.requiresPhoneFollowup <;> cases l.deskConfirmedPhonedAt <;> simp

theorem followupLaw_iff_open : FollowupLaw cfg b s ↔ s.line.lockedAt ≠ none ∧
    (printedLine cfg b s.line s.order ≠ s.printed → s.line.IsOpen) ∧
    (s.touched = false → ¬s.line.IsOpen) ∧
    s.settled = (!s.line.requiresPhoneFollowup && s.line.deskConfirmedPhonedAt.isSome) := by
  constructor
  · intro h
    refine ⟨h.locked, fun hne => isOpen_iff_listed.mpr fun now hpast => h.listed now hpast hne,
      fun htouched => not_isOpen_iff.mpr (h.unlisted htouched), ?_⟩
    exact Bool.eq_iff_iff.mpr ((h.confirmed 0).symm.trans (alreadyConfirmed_iff 0))
  · rintro ⟨hlocked, hlisted, hunlisted, hsettled⟩
    refine ⟨hlocked, fun now hpast hne => isOpen_iff_listed.mp (hlisted hne) now hpast,
      fun htouched => not_isOpen_iff.mp (hunlisted htouched), fun now => ?_⟩
    rw [hsettled]
    exact alreadyConfirmed_iff now

/-! ## The steps -/

theorem postCutoffFollowup_cases (old : FollowupLine) (hlocked : new.lockedAt ≠ none) :
    (watchedChanged new old = true ∧ new.requiresPhoneFollowup = false ∧
      postCutoffFollowup new old =
        { new with requiresPhoneFollowup := true, deskConfirmedPhonedAt := none }) ∨
    ((watchedChanged new old = true → new.requiresPhoneFollowup = true) ∧
      postCutoffFollowup new old = new) := by
  unfold postCutoffFollowup
  rw [if_neg (by simpa using hlocked)]
  split
  · rename_i hfires
    simp only [Bool.and_eq_true, Bool.not_eq_true'] at hfires
    exact .inl ⟨hfires.1, hfires.2, rfl⟩
  · rename_i hquiet
    refine .inr ⟨fun hchanged => ?_, rfl⟩
    simpa [hchanged] using hquiet

theorem followupLaw_editLine (h : FollowupLaw cfg b s) (columns : FollowupLine) (raises : Bool) :
    FollowupLaw cfg b (followupStep cfg b s (.editLine columns raises)) ↔
      FollowupSafe cfg b s (.editLine columns raises) := by
  obtain ⟨hlocked, _, hunlisted, hsettled⟩ := followupLaw_iff_open.mp h
  rw [followupLaw_iff_open]
  unfold FollowupSafe
  have hlocked' : (s.line.assign columns raises).lockedAt ≠ none := hlocked
  simp only [followupStep]
  rcases postCutoffFollowup_cases s.line hlocked' with
    ⟨hchanged, hflag, htrigger⟩ | ⟨hquiet, htrigger⟩
  · have hne : postCutoffFollowup (s.line.assign columns raises) s.line ≠ s.line := by
      intro hsame
      have hup : s.line.requiresPhoneFollowup = true := by
        rw [← hsame, htrigger]
      have hdown : (s.line.requiresPhoneFollowup || raises) = false := hflag
      rw [hup] at hdown
      cases hdown
    refine iff_of_true ⟨?_, fun _ => ?_, fun htouched => ?_, ?_⟩ fun _ => .inr ⟨hchanged, hflag⟩
    · rw [htrigger]
      exact hlocked'
    · rw [htrigger]
      exact ⟨rfl, rfl⟩
    · simp [hne] at htouched
    · rw [htrigger]
      simp
  · rw [htrigger]
    constructor
    · rintro ⟨_, hlisted, _⟩ hprinted
      exact .inl (hlisted hprinted)
    · intro hsafe
      refine ⟨hlocked', fun hprinted => ?_, fun htouched => ?_, ?_⟩
      · rcases hsafe hprinted with hopen | ⟨hchanged, hdown⟩
        · exact hopen
        · rw [hquiet hchanged] at hdown
          cases hdown
      · simp only [Bool.or_eq_false_iff, decide_eq_false_iff_not, not_not] at htouched
        rw [htouched.2]
        exact hunlisted htouched.1
      · rw [hsettled]
        show _ = (!(s.line.requiresPhoneFollowup || raises) && s.line.deskConfirmedPhonedAt.isSome)
        have hflag : (s.line.assign columns raises).requiresPhoneFollowup =
          (s.line.requiresPhoneFollowup || raises) := rfl
        rw [hflag]
        cases s.line.requiresPhoneFollowup <;> cases raises <;> simp

theorem followupLaw_inferStatus (h : FollowupLaw cfg b s) :
    FollowupLaw cfg b (followupStep cfg b s .inferStatus) ↔ FollowupSafe cfg b s .inferStatus := by
  obtain ⟨hlocked, hlisted, hunlisted, hsettled⟩ := followupLaw_iff_open.mp h
  unfold FollowupSafe followupStep
  cases hstatus : inferredStatus s.line.fulfillmentStatus with
  | none =>
    refine iff_of_true h (.inl ?_)
    rfl
  | some status =>
    have hchanged : watchedChanged { s.line with fulfillmentStatus := status } s.line = true := by
      have hne : status ≠ s.line.fulfillmentStatus := by
        rintro rfl
        cases hold : s.line.fulfillmentStatus <;> rw [hold] at hstatus <;> cases hstatus
      simp [watchedChanged, hne]
    simp only [followupLaw_iff_open, reduceCtorEq, false_or]
    have hlocked' : ({ s.line with fulfillmentStatus := status } : FollowupLine).lockedAt ≠ none :=
      hlocked
    rcases postCutoffFollowup_cases s.line hlocked' with
      ⟨_, hflag, htrigger⟩ | ⟨hquiet, htrigger⟩
    · have hdown : s.line.requiresPhoneFollowup = false := hflag
      rw [htrigger]
      constructor
      · rintro ⟨_, _, huntouched, _⟩
        refine .inr (Bool.eq_true_of_not_eq_false fun htouched => ?_)
        exact huntouched htouched ⟨rfl, rfl⟩
      · rintro (hup | htouched)
        · exact absurd hup (by simp [hdown])
        · refine ⟨hlocked', fun _ => ⟨rfl, rfl⟩, fun hfalse => ?_, by simp⟩
          exact absurd htouched (by simp [hfalse])
    · have hup : s.line.requiresPhoneFollowup = true := hquiet hchanged
      refine iff_of_true ⟨?_, ?_, ?_, ?_⟩ (.inl hup)
      all_goals rw [htrigger]
      · exact hlocked'
      · exact hlisted
      · exact hunlisted
      · rw [hsettled]
        simp [hup]

theorem followupLaw_step (h : FollowupLaw cfg b s) (event : FollowupEvent) :
    FollowupLaw cfg b (followupStep cfg b s event) ↔ FollowupSafe cfg b s event := by
  cases event with
  | editLine columns raises => exact followupLaw_editLine h columns raises
  | inferStatus => exact followupLaw_inferStatus h
  | editOrder order =>
    obtain ⟨hlocked, _, hunlisted, hsettled⟩ := followupLaw_iff_open.mp h
    rw [followupLaw_iff_open]
    constructor
    · exact fun hlaw => hlaw.2.1
    · refine fun hsafe => ⟨hlocked, hsafe, fun htouched => hunlisted ?_, hsettled⟩
      exact (Bool.or_eq_false_iff.mp htouched).1
  | confirmPhoned now =>
    refine iff_of_true ?_ trivial
    unfold followupStep confirmPhoned
    cases hflag : s.line.requiresPhoneFollowup with
    | false => cases s.line.deskConfirmedPhonedAt <;> exact h
    | true =>
      have hlocked := h.locked
      have hsame : ({ s.line with
          requiresPhoneFollowup := false
          deskConfirmedPhonedAt := some now } : FollowupLine).lockedAt ≠ none := hlocked
      rcases postCutoffFollowup_cases s.line hsame with ⟨hchanged, _⟩ | ⟨_, htrigger⟩
      · simp [watchedChanged] at hchanged
      · simp only [if_true, htrigger]
        refine followupLaw_iff_open.mpr ⟨hsame, fun hne => absurd rfl hne, fun _ hopen => ?_, rfl⟩
        cases hopen.1

end

/-- In every state of a history that begins with the lock, the law holds exactly if the line was not
open then and every step is safe. -/
theorem followupLaw_iff (cfg : Config) (b : Bucket) (listId : Nat) (now : Int) (l : FollowupLine)
    (o : Order) (events : List FollowupEvent) :
    (∀ pre post, events = pre ++ post →
      FollowupLaw cfg b (run (followupStep cfg b) (lockState cfg b listId now l o) pre)) ↔
    ¬l.IsOpen ∧ Guarded (followupStep cfg b) (FollowupSafe cfg b) (lockState cfg b listId now l o)
      events := by
  have hstart : FollowupLaw cfg b (lockState cfg b listId now l o) ↔ ¬l.IsOpen := by
    rw [followupLaw_iff_open]
    constructor
    · exact fun h => h.2.2.1 rfl
    · exact fun h => ⟨Option.some_ne_none _, fun hne => absurd rfl hne, fun _ => h, rfl⟩
  by_cases hopen : l.IsOpen
  · refine iff_of_false (fun h => ?_) fun h => h.1 hopen
    exact hstart.mp (h [] events rfl) hopen
  · have hany : Guarded (followupStep cfg b) (fun _ _ => True) (lockState cfg b listId now l o)
        events := guarded_iff.mpr fun _ _ _ _ => trivial
    have hrun := invariant_iff_guarded (I := FollowupLaw cfg b)
      (fun s event h _ => followupLaw_step h event) (hstart.mpr hopen) hany
    exact hrun.trans (and_iff_right hopen).symm

/-! ## A lunch for more people -/

/-- An order of today, by a list of the whole building. -/
def lunchOrder : Order where
  id := 1
  deliveryLocationId := none
  deliveryDate := some 1
  deliveryTime := some 43200
  headcount := some 8
  status := .confirmed
  snapshotServiceType := none

def lunchLine : FollowupLine where
  id := 1
  orderId := 1
  vendorId := some 1
  menuItemId := none
  catalogItemId := 5
  quantity := 8
  fulfillmentStatus := .ordered
  recurrenceSkipped := false
  lockedAt := none
  dailyListId := none

/-- The vendor is not told of a new headcount. -/
theorem headcount_unphoned : ¬∀ (cfg : Config) (events : List FollowupEvent) pre post,
    events = pre ++ post → FollowupLaw cfg ⟨1, none, "", 1⟩
      (run (followupStep cfg ⟨1, none, "", 1⟩)
        (lockState cfg ⟨1, none, "", 1⟩ 2 0 lunchLine lunchOrder) pre) := by
  intro h
  have hlaw := h ⟨Table.empty, Table.empty, Table.empty, Table.empty, id, id, 0⟩
    [.editOrder { lunchOrder with headcount := some 12 }] _ [] (List.append_nil _).symm
  exact absurd (hlaw.listed 0 (fun t ht => by cases ht) (by decide)) (by decide)

end Prequest.DailyList
