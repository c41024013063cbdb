import Prequest.Approval.TicketGrant

/-!
# Approval groups of a ticket

A group is a set of approval rows of one ticket that count one another: the
rows of one chain, or of one parallel group. `IsGroup` says it through the
sibling condition of the SQL count, so that a theorem about a group needs to
know nothing else about the two columns.
-/

namespace Prequest.Approval

open Prequest.Lib

/-- The rows with an id in `members` are the rows of one group on the ticket. -/
structure IsGroup (approvals : Table ApprovalRow) (ticketId : Nat) (members : List Nat) : Prop where
  target : ∀ a ∈ approvals.rows, a.id ∈ members →
    a.targetEntityType = .ticket ∧ a.targetEntityId = ticketId
  sibling : ∀ a ∈ approvals.rows, a.id ∈ members → ∀ r ∈ approvals.rows,
    (a.siblingOf r = true ↔ r.id ∈ members)

/-- The members' rows all have the status `s`. -/
def AllHave (approvals : Table ApprovalRow) (members : List Nat) (s : ApprovalStatus) : Prop :=
  ∀ r ∈ approvals.rows, r.id ∈ members → r.status = s

instance (approvals : Table ApprovalRow) (members : List Nat) (s : ApprovalStatus) :
    Decidable (AllHave approvals members s) :=
  inferInstanceAs (Decidable (∀ r ∈ approvals.rows, _))

instance (approvals : Table ApprovalRow) (ticketId : Nat) (members : List Nat) :
    Decidable (IsGroup approvals ticketId members) :=
  decidable_of_iff
    ((∀ a ∈ approvals.rows, a.id ∈ members →
        a.targetEntityType = .ticket ∧ a.targetEntityId = ticketId) ∧
      ∀ a ∈ approvals.rows, a.id ∈ members → ∀ r ∈ approvals.rows,
        (a.siblingOf r = true ↔ r.id ∈ members))
    ⟨fun h => ⟨h.1, h.2⟩, fun h => ⟨h.target, h.sibling⟩⟩

/-! ## An answer and its group -/

section

variable {db : TicketDb} {call : GrantCall} {decision : Decision} {ticketId : Nat}
  {members : List Nat}

theorem mem_respond {r' : ApprovalRow} :
    r' ∈ (db.respond call decision).approvals.rows ↔
      ∃ r ∈ db.approvals.rows, (if r.id == call.approvalId && r.status == .pending then
        r.respond decision call.now call.comments else r) = r' :=
  Table.mem_update

variable {r : ApprovalRow}

theorem mem_respond_of_ne (hr : r ∈ db.approvals.rows)
    (hid : r.id ≠ call.approvalId) : r ∈ (db.respond call decision).approvals.rows := by
  refine mem_respond.mpr ⟨r, hr, ?_⟩
  simp [hid]

variable {a : ApprovalRow}

theorem mem_respond_cases {r' : ApprovalRow} (hrow : db.approvals.get? call.approvalId = some a)
    (hpending : a.status = .pending) (h : r' ∈ (db.respond call decision).approvals.rows) :
    (r' ∈ db.approvals.rows ∧ r'.id ≠ call.approvalId) ∨
      r' = a.respond decision call.now call.comments := by
  obtain ⟨r, hr, rfl⟩ := mem_respond.mp h
  by_cases hid : r.id = call.approvalId
  · right
    have hra : r = a := Option.some.inj ((get?_eq_some_iff.mpr ⟨hr, hid⟩).symm.trans hrow)
    subst hra
    simp [hid, hpending]
  · left
    simpa [hid] using hr

theorem IsGroup.respond (h : IsGroup db.approvals ticketId members) :
    IsGroup (db.respond call decision).approvals ticketId members := by
  refine ⟨?_, ?_⟩
  · intro a' ha' hmem
    obtain ⟨a, ha, rfl⟩ := mem_respond.mp ha'
    have htarget := h.target a ha (by split at hmem <;> exact hmem)
    split <;> exact htarget
  · intro a' ha' hmem r' hr'
    obtain ⟨a, ha, rfl⟩ := mem_respond.mp ha'
    obtain ⟨r, hr, rfl⟩ := mem_respond.mp hr'
    have hsib := h.sibling a ha (by split at hmem <;> exact hmem) r hr
    split <;> split <;> exact hsib

/-- After an approving answer no row is counted exactly when no other row of the group waits. -/
theorem remainingCount_eq_zero_iff (hgroup : IsGroup db.approvals ticketId members)
    (hrow : db.approvals.get? call.approvalId = some a) (hmem : call.approvalId ∈ members)
    (hpending : a.status = .pending) :
    remainingCount (db.respond call .approved).approvals a .approved = 0 ↔
      ∀ r ∈ db.approvals.rows, r.id ∈ members → r.id ≠ call.approvalId → r.nonTerminal = false := by
  obtain ⟨ha, hid⟩ := get?_eq_some_iff.mp hrow
  have hsib := hgroup.sibling a ha (by rw [hid]; exact hmem)
  -- The row belongs to its own group, so it has one of the two labels and the group is counted.
  have hlabel : a.approvalChainId.isSome ∨ a.parallelGroup.isSome := by
    have hself := (hsib a ha).mpr (by rw [hid]; exact hmem)
    simp only [ApprovalRow.siblingOf, Bool.and_eq_true, Bool.or_eq_true] at hself
    exact hself.2.imp And.left And.left
  rw [remainingCount, if_pos ⟨rfl, hlabel⟩, nonTerminalCount, List.countP_eq_zero]
  constructor
  · intro h r hr hrm hne
    have hrespond := h r (mem_respond_of_ne hr hne)
    simpa [(hsib r hr).mpr hrm] using hrespond
  · intro h r' hr' hboth
    rw [Bool.and_eq_true] at hboth
    rcases mem_respond_cases hrow hpending hr' with ⟨hr, hne⟩ | rfl
    · rw [h r' hr ((hsib r' hr).mp hboth.1) hne] at hboth
      exact absurd hboth.2 (by decide)
    · simp [ApprovalRow.nonTerminal, ApprovalRow.respond, Decision.toStatus] at hboth

end

end Prequest.Approval
