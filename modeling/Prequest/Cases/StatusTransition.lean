import Prequest.Sla.Timer

/-!
# Status transitions of cases and work orders

`transition_entity_status` moves a row of `tickets` or of `work_orders` to
another status. It computes the new values from the keys of its payload, refuses
to settle a case that has open children, stamps the entry into a terminal
category, and says what the SLA timers of the row are to do.

* `rollup_of_terminal`, `rollup_of_settled`: what the trigger on `work_orders` makes of the parent.
-/

namespace Prequest.Cases

open Prequest.Sla

/-! ## Columns -/

/-- The columns that a transition reads and writes. -/
structure StatusColumns where
  status : String
  statusCategory : String
  waitingReason : Option String := none
  resolvedAt : Option Int := none
  closedAt : Option Int := none
  deriving DecidableEq, Repr

/-- `p_payload`: an absent key is `none`, and `null` is `some none`. -/
structure StatusPayload where
  status : Option (Option String) := none
  statusCategory : Option (Option String) := none
  waitingReason : Option (Option String) := none
  deriving DecidableEq, Repr

/-- `nullif(s, '')`. -/
def nullif (s : Option String) : Option String := if s = some "" then none else s

/-- `v_terminal_categories`. -/
def terminalCategories : List String := ["resolved", "closed"]

def isTerminal (category : String) : Bool := terminalCategories.contains category

/-- The values that the `CHECK` on `status_category` admits. -/
def statusCategories (kind : EntityKind) : List String :=
  ["new", "assigned", "in_progress", "waiting", "resolved", "closed"] ++
    match kind with
    | .case => ["pending_approval"]
    | .workOrder => []

/-- The values that the `CHECK` on `waiting_reason` admits. -/
def waitingReasons : List String := ["requester", "vendor", "approval", "scheduled_work", "other"]

/-- What the `CHECK` constraints of the table say of a row. -/
def StatusColumns.valid (kind : EntityKind) (c : StatusColumns) : Bool :=
  (statusCategories kind).contains c.statusCategory &&
    c.waitingReason.all fun reason => waitingReasons.contains reason

/-! ## The transition -/

/-- The row after the transition. The stamps are set on the entry into their category, kept
between the terminal categories and cleared on the way out. -/
def transitionColumns (now : Int) (cur : StatusColumns) (status statusCategory : String)
    (waitingReason : Option String) : StatusColumns :=
  let reopened := isTerminal cur.statusCategory && !isTerminal statusCategory
  { status := status
    statusCategory := statusCategory
    waitingReason := waitingReason
    resolvedAt :=
      if reopened then none
      else if statusCategory = "resolved" ∧ cur.statusCategory ≠ "resolved" then
        some (cur.resolvedAt.getD now)
      else cur.resolvedAt
    closedAt :=
      if reopened then none
      else if statusCategory = "closed" ∧ cur.statusCategory ≠ "closed" then
        some (cur.closedAt.getD now)
      else cur.closedAt }

/-- The case goes from an open category to a terminal one. -/
def settles (prev next : String) : Bool := isTerminal next && !isTerminal prev

/-- `v_new_waiting_reason`. -/
def StatusPayload.newWaitingReason (p : StatusPayload) (cur : StatusColumns) : Option String :=
  match p.waitingReason with
  | some reason => nullif reason
  | none => cur.waitingReason

/-- `transition_entity_status`, up to its writes. A no-op writes nothing. -/
def transition (kind : EntityKind) (openChildren : Nat) (now : Int) (cur : StatusColumns)
    (p : StatusPayload) : Except String (Option StatusColumns) :=
  let waitingReason := p.newWaitingReason cur
  match nullif (p.status.getD (some cur.status)) with
  | none => .error "transition_entity_status.invalid_status"
  | some status =>
      match nullif (p.statusCategory.getD (some cur.statusCategory)) with
      | none => .error "transition_entity_status.invalid_status_category"
      | some statusCategory =>
          if kind = .case ∧ settles cur.statusCategory statusCategory = true ∧ 0 < openChildren then
            .error "transition_entity_status.has_open_children"
          else if status = cur.status ∧ statusCategory = cur.statusCategory ∧
              waitingReason = cur.waitingReason then .ok none
          else
            let next := transitionColumns now cur status statusCategory waitingReason
            if next.valid kind then .ok (some next) else .error "23514"

/-- `v_action`. -/
inductive TimerAction where
  | pause
  | resume
  | stop
  deriving DecidableEq, Repr

/-- `v_should_pause`: the policy of the row pauses its timers in this state. -/
def shouldPause (pauseReasons : Option (List String)) (c : StatusColumns) : Bool :=
  c.statusCategory == "waiting" &&
    match c.waitingReason, pauseReasons with
    | some reason, some reasons => reasons.contains reason
    | _, _ => false

/-- What the transition from `prev` to `next` asks of the timers of the row. -/
def timerAction (pauseReasons : Option (List String)) (prev next : StatusColumns) :
    Option TimerAction :=
  if shouldPause pauseReasons next then some .pause
  else if !isTerminal prev.statusCategory && prev.statusCategory == "waiting" &&
      next.statusCategory != "waiting" then some .resume
  else if settles prev.statusCategory next.statusCategory then some .stop
  else none

/-! ## The parent of a work order -/

/-- `rollup_parent_status_from_work_orders`: the columns of the parent, given the categories of all
work orders under it after the write. -/
def rollup (now : Int) (children : List String) (parent : StatusColumns) : StatusColumns :=
  if children.contains "in_progress" then
    if ["in_progress", "resolved", "closed"].contains parent.statusCategory then parent
    else { parent with statusCategory := "in_progress" }
  else if children.any fun c => !isTerminal c then
    if ["assigned", "in_progress", "resolved", "closed"].contains parent.statusCategory then parent
    else { parent with statusCategory := "assigned" }
  else if isTerminal parent.statusCategory then parent
  else
    { parent with statusCategory := "resolved", resolvedAt := some (parent.resolvedAt.getD now) }

theorem rollup_of_terminal {now : Int} {children : List String} {parent : StatusColumns}
    (hparent : isTerminal parent.statusCategory = true) : rollup now children parent = parent := by
  have hsettled : parent.statusCategory = "resolved" ∨ parent.statusCategory = "closed" := by
    simpa [isTerminal, terminalCategories] using hparent
  unfold rollup
  rcases hsettled with h | h <;> simp [h, isTerminal, terminalCategories]

theorem rollup_of_settled {now : Int} {children : List String} {parent : StatusColumns}
    (hparent : isTerminal parent.statusCategory = false)
    (hsettled : ∀ category ∈ children, isTerminal category = true) :
    (rollup now children parent).statusCategory = "resolved" := by
  have hprogress : "in_progress" ∉ children := by
    intro hmem
    have hterminal := hsettled "in_progress" hmem
    exact absurd hterminal (by decide)
  have hany : (children.any fun c => !isTerminal c) = false := by
    apply List.any_eq_false.mpr
    intro category hmem
    simp [hsettled category hmem]
  simp [rollup, hprogress, hany, hparent]

end Prequest.Cases
