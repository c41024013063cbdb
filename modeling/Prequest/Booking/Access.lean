import Mathlib.Data.List.Basic

/-!
# Who sees a booking

`ReservationVisibilityService` says it three times: `canSee` about a row in memory,
`applyFilterToQuery` to the database, and `canEdit` for those who may change the row.

* `visibilityLaw_iff`: the three agree unless only `rooms.write_all` lets an actor see the row.
-/

namespace Prequest.Booking

/-- The columns of a booking that are asked for. -/
structure Reservation where
  id : Nat
  requesterPersonId : Nat
  attendeePersonIds : Option (List Nat)
  bookedByUserId : Option Nat
  deriving DecidableEq, Repr

/-- An actor. The empty `user_id` of an actor without a row in `users` is `none`. -/
structure ReservationVisibilityContext where
  userId : Option Nat
  personId : Option Nat
  hasReadAll : Bool
  hasWriteAll : Bool
  hasAdmin : Bool
  deriving DecidableEq, Repr

/-- A clause of an `or`. -/
inductive OrClause where
  | requesterEq (personId : Nat)
  | attendeesContain (personId : Nat)
  | bookedByEq (userId : Nat)
  deriving DecidableEq, Repr

/-- A clause about `NULL` is not true. -/
def OrClause.accepts (r : Reservation) : OrClause → Bool
  | .requesterEq personId => r.requesterPersonId == personId
  | .attendeesContain personId => r.attendeePersonIds.any fun ids => ids.contains personId
  | .bookedByEq userId => r.bookedByUserId == some userId

/-- What a query asks of a row. -/
inductive RowFilter where
  | idEq (id : Nat)
  | anyOf (clauses : List OrClause)
  deriving DecidableEq, Repr

def RowFilter.accepts (r : Reservation) : RowFilter → Bool
  | .idEq id => r.id == id
  | .anyOf clauses => clauses.any (OrClause.accepts r)

abbrev RowQuery := List RowFilter

def RowQuery.returns (query : RowQuery) (r : Reservation) : Bool :=
  query.all fun f => f.accepts r

/-- `00000000-0000-0000-0000-000000000000`. -/
def nilUuid : Nat := 0

section

variable (ctx : ReservationVisibilityContext) (r : Reservation)

/-- The user or the person of the actor is on the booking. -/
def canSee : Bool :=
  if ctx.hasAdmin || ctx.hasReadAll || ctx.hasWriteAll then true
  else if ctx.personId.any fun p => r.requesterPersonId == p then true
  else if ctx.personId.any fun p => (r.attendeePersonIds.getD []).contains p then true
  else ctx.userId.any fun u => r.bookedByUserId == some u

def canEdit : Bool :=
  if ctx.hasAdmin || ctx.hasWriteAll then true
  else if ctx.personId.any fun p => r.requesterPersonId == p then true
  else ctx.userId.any fun u => r.bookedByUserId == some u

def orClauses : List OrClause :=
  (match ctx.personId with
    | some p => [.requesterEq p, .attendeesContain p]
    | none => []) ++
  match ctx.userId with
    | some u => [.bookedByEq u]
    | none => []

def applyFilterToQuery (query : RowQuery) : RowQuery :=
  if ctx.hasAdmin || ctx.hasReadAll then query
  else if ctx.personId.isNone && ctx.userId.isNone then query ++ [.idEq nilUuid]
  else query ++ [.anyOf (orClauses ctx)]

/-! ## One relation -/

/-- The filter leaves of every query the rows that the actor can see, and an actor who can edit the
row can see it, in memory and in the query. -/
structure VisibilityLaw : Prop where
  same : ∀ query : RowQuery,
    (applyFilterToQuery ctx query).returns r = (query.returns r && canSee ctx r)
  edits : canEdit ctx r = true →
    canSee ctx r = true ∧ (applyFilterToQuery ctx []).returns r = true

def Participates : Prop :=
  (∃ p, ctx.personId = some p ∧ (r.requesterPersonId = p ∨ p ∈ r.attendeePersonIds.getD [])) ∨
    ∃ u, ctx.userId = some u ∧ r.bookedByUserId = some u

/-- The actor needs no `rooms.write_all` to see the row. Nobody at all, with or without it, is shown
the row with the nil id. -/
def SeesWithoutWriteAll : Prop :=
  ctx.hasAdmin = true ∨ ctx.hasReadAll = true ∨
    if ctx.personId = none ∧ ctx.userId = none then (ctx.hasWriteAll = true ↔ r.id = nilUuid)
    else ctx.hasWriteAll = true → Participates ctx r

end

section

variable {ctx : ReservationVisibilityContext} {r : Reservation}

theorem returns_append {query query' : RowQuery} :
    RowQuery.returns (query ++ query') r = (query.returns r && RowQuery.returns query' r) :=
  List.all_append

theorem canSee_iff : canSee ctx r = true ↔
    (ctx.hasAdmin = true ∨ ctx.hasReadAll = true ∨ ctx.hasWriteAll = true) ∨ Participates ctx r := by
  unfold canSee Participates
  cases ctx.personId <;> cases ctx.userId <;> simp [or_assoc]

theorem accepts_orClauses :
    (RowFilter.anyOf (orClauses ctx)).accepts r = true ↔ Participates ctx r := by
  unfold RowFilter.accepts Participates orClauses
  cases ctx.personId <;> cases ctx.userId <;> cases hattendees : r.attendeePersonIds <;>
    simp [OrClause.accepts, hattendees, or_assoc]

theorem canSee_of_canEdit (h : canEdit ctx r = true) : canSee ctx r = true := by
  rw [canSee_iff]
  unfold canEdit at h
  unfold Participates
  cases hperson : ctx.personId <;> cases huser : ctx.userId <;> simp [hperson, huser] at h ⊢ <;>
    grind

theorem returns_applyFilterToQuery {query : RowQuery} :
    (applyFilterToQuery ctx query).returns r =
      (query.returns r && (applyFilterToQuery ctx []).returns r) := by
  unfold applyFilterToQuery
  split_ifs
  · exact (Bool.and_true _).symm
  · exact returns_append
  · exact returns_append

theorem filter_returns_iff : (applyFilterToQuery ctx []).returns r = true ↔
    (ctx.hasAdmin = true ∨ ctx.hasReadAll = true) ∨
      if ctx.personId = none ∧ ctx.userId = none then r.id = nilUuid else Participates ctx r := by
  unfold applyFilterToQuery
  by_cases hall : (ctx.hasAdmin || ctx.hasReadAll) = true
  · rw [if_pos hall]
    rw [Bool.or_eq_true] at hall
    exact iff_of_true rfl (.inl hall)
  rw [if_neg hall]
  rw [Bool.or_eq_true] at hall
  rw [or_iff_right hall]
  by_cases hnobody : ctx.personId = none ∧ ctx.userId = none
  · rw [if_pos hnobody, if_pos (by simp [hnobody])]
    simp [RowQuery.returns, RowFilter.accepts]
  · rw [if_neg hnobody, if_neg (by simpa using hnobody), ← accepts_orClauses]
    simp [RowQuery.returns]

/-- The three agree exactly when the actor needs no `rooms.write_all` to see the row. -/
theorem visibilityLaw_iff (ctx : ReservationVisibilityContext) (r : Reservation) :
    VisibilityLaw ctx r ↔ SeesWithoutWriteAll ctx r := by
  have hsame : VisibilityLaw ctx r ↔
      ((applyFilterToQuery ctx []).returns r = true ↔ canSee ctx r = true) := by
    constructor
    · intro h
      have hreturns := h.same []
      rw [hreturns]
      show (true && canSee ctx r) = true ↔ _
      rw [Bool.true_and]
    · intro h
      refine ⟨fun query => ?_, fun hedit => ?_⟩
      · rw [returns_applyFilterToQuery, Bool.eq_iff_iff.mpr h]
      · have hsee := canSee_of_canEdit hedit
        exact ⟨hsee, h.mpr hsee⟩
  rw [hsame, filter_returns_iff, canSee_iff]
  unfold SeesWithoutWriteAll
  by_cases hnobody : ctx.personId = none ∧ ctx.userId = none
  · have hout : ¬Participates ctx r := by
      simp [Participates, hnobody]
    simp only [if_pos hnobody]
    cases ctx.hasAdmin <;> cases ctx.hasReadAll <;> cases ctx.hasWriteAll <;> simp [hout]
  · simp only [if_neg hnobody]
    cases ctx.hasAdmin <;> cases ctx.hasReadAll <;> cases ctx.hasWriteAll <;> simp

/-- Someone who may write all bookings, and is on none. -/
def writer : ReservationVisibilityContext := ⟨some 1, some 2, false, true, false⟩

/-- The writer can see and edit the booking of somebody else, but does not find it. -/
theorem visibilityLaw_writer : ¬VisibilityLaw writer ⟨9, 3, some [4], some 5⟩ := by
  intro h
  exact absurd (h.edits rfl).2 (by decide)

end

end Prequest.Booking
