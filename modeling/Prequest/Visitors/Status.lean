import Mathlib.Data.List.Basic

/-!
# The status of a visitor

`ALLOWED_TRANSITIONS` of `VisitorService`, which the trigger
`assert_visitor_status_transition` repeats.
-/

namespace Prequest.Visitors

inductive VisitorStatus where
  | pendingApproval
  | expected
  | arrived
  | inMeeting
  | checkedOut
  | noShow
  | cancelled
  | denied
  deriving DecidableEq, Repr

/-- `ALLOWED_TRANSITIONS`. -/
def allowedTransitions : VisitorStatus → List VisitorStatus
  | .pendingApproval => [.expected, .denied, .cancelled]
  | .expected => [.arrived, .noShow, .cancelled, .denied]
  | .arrived => [.inMeeting, .checkedOut]
  | .inMeeting => [.checkedOut]
  | .checkedOut | .noShow | .cancelled | .denied => []

/-- The statuses that no transition leaves. -/
def VisitorStatus.terminal (status : VisitorStatus) : Bool :=
  status ∈ [.checkedOut, .noShow, .cancelled, .denied]

theorem allowedTransitions_eq_nil_iff {status : VisitorStatus} :
    allowedTransitions status = [] ↔ status.terminal = true := by
  cases status <;> decide

end Prequest.Visitors
