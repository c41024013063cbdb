import Prequest.Booking.RoomApprovers
import Prequest.Booking.SetupEvents

/-!
# Services for an existing booking

`attach_services_to_existing_booking` writes the services of a plan for a booking that
exists, as `create_booking_with_attach_plan` does for one that it creates. It describes
the booking to the validators by a projection of its row, and its insert into
`approvals` does not name the columns of a chain.

* `attachAgrees`: a booking that gets its services later is the same as one created with
  them, but for the chains of its approvals.
-/

namespace Prequest.Booking

open Prequest.Lib Prequest.Outbox Prequest.Approval Prequest.Command Prequest.Orders

/-! ## The function -/

/-- `v_booking_input`. The booking has its slots already. -/
def BookingRow.input (b : BookingRow) : BookingInput where
  bookingId := b.id
  requesterPersonId := b.requesterPersonId
  hostPersonId := b.hostPersonId
  locationId := b.locationId
  startAt := b.startAt
  endAt := b.endAt
  status := b.status
  costCenterId := b.costCenterId
  appliedRuleIds := b.appliedRuleIds
  recurrenceSeriesId := b.recurrenceSeriesId
  slots := []

/-- The columns of a chain at their defaults. -/
def unchained (r : ApprovalRow) : ApprovalRow :=
  { r with
    approvalChainId := none
    parallelGroup := none
    chainThreshold := .all
    approverTeamId := none }

inductive AttachError where
  | idempotencyKeyRequired
  | gate (e : GateError)
  | serviceRuleDeny
  | bookingNotFound (bookingId : Nat)
  | referencesInvalid
  | insert (e : CreateError)
  deriving DecidableEq, Repr

/-- The tables of the function. Its keys in `attach_operations` have a prefix of their own. -/
structure AttachStore where
  db : BookingDb
  operations : Table (CommandOperation String AttachPlan CreateResult) := Table.empty

section

variable (uuid : PlanUuid → Nat)

/-- The events of the lines, unless the plan waits for an approval. -/
def setupEmits (input : BookingInput) (plan : AttachPlan) :
    List (Event BookingEventKey BookingEvent) :=
  if plan.anyPendingApproval then []
  else plan.orderLineItems.filterMap fun line =>
    line.setupEmit.map fun setup => createSetupEvent uuid input line setup

def insertServices (db : BookingDb) (b : BookingRow) (plan : AttachPlan) (now : Nat) :
    Except CreateError BookingDb :=
  match insertAll db.orders (plan.orders.map (orderRowOf uuid b.input)) with
  | .error e => .error e
  | .ok orders =>
  match insertAll db.assetReservations
      (plan.assetReservations.map (assetReservationRowOf uuid b.input)) with
  | .error e => .error e
  | .ok assetReservations =>
  match insertAll db.orderLineItems (plan.orderLineItems.map (orderLineItemRowOf uuid)) with
  | .error e => .error e
  | .ok orderLineItems =>
  match insertApprovalRows db.approvals
      ((plan.approvals.map (approvalRowOfPlan uuid now)).map unchained) with
  | .error e => .error e
  | .ok approvals =>
  match emitAll db.outbox (setupEmits uuid b.input plan) with
  | .error e => .error (.emit e)
  | .ok outbox => .ok
      { db with
        orders := orders
        assetReservations := assetReservations
        orderLineItems := orderLineItems
        approvals := approvals
        outbox := outbox }

/-- `attach_services_to_existing_booking`. -/
def attachServicesToExistingBooking (valid : BookingInput → AttachPlan → Bool) (store : AttachStore)
    (bookingId : Nat) (plan : AttachPlan) (key : String) (now : Nat) :
    Except AttachError (AttachStore × CreateResult) :=
  if key = "" then .error .idempotencyKeyRequired
  else match gate store.operations key plan with
    | .error e => .error (.gate e)
    | .ok (.cached result) => .ok (store, result)
    | .ok .proceed =>
        if plan.anyDeny then .error .serviceRuleDeny
        else match store.db.bookings.get? bookingId with
          | none => .error (.bookingNotFound bookingId)
          | some b =>
              if !valid b.input plan then .error .referencesInvalid
              else match insertServices uuid store.db b plan now with
                | .error e => .error (.insert e)
                | .ok db =>
                    let result : CreateResult :=
                      { bookingId := b.id
                        approvalIds := plan.approvals.map AttachPlanApproval.id
                        anyPendingApproval := plan.anyPendingApproval }
                    .ok ({ db := db, operations := finish (begin store.operations key plan) key result },
                      result)

/-! ## Two ways to a booking with services -/

/-- The plan of a booking without services. -/
def noServices : AttachPlan where
  anyPendingApproval := false
  anyDeny := false
  denyMessages := []
  orders := []
  assetReservations := []
  orderLineItems := []
  approvals := []

/-- The booking is created, and then gets its services. -/
def createThenAttach (db : BookingDb) (input : BookingInput) (plan : AttachPlan) (key : String)
    (now : Nat) : Except CreateError BookingDb :=
  match insertPlan uuid db input noServices key now with
  | .error e => .error e
  | .ok created => insertServices uuid created (bookingRowOf input) plan now

end

/-- The same rows in all tables, except that the new approvals `db'` has are those of `db` out of
their chains; the outbox may have its events in another order. -/
structure SameButChains (before : Table ApprovalRow) (db db' : BookingDb) : Prop where
  approvals : ∃ rows, db.approvals.rows = before.rows ++ rows ∧
    db'.approvals.rows = before.rows ++ rows.map unchained
  events : ∀ k, db.outbox.get? k = db'.outbox.get? k
  others : { db with approvals := db'.approvals, outbox := db'.outbox } = db'

/-- Both raise, or both commit the same. -/
def SameOutcome (before : Table ApprovalRow) :
    Except CreateError BookingDb → Except CreateError BookingDb → Prop
  | .ok db, .ok db' => SameButChains before db db'
  | .error _, .error _ => True
  | _, _ => False

/-! ## Approvals -/

/-- What a unique index of `approvals` reads. -/
def indexed (r : ApprovalRow) : Nat × ApprovalStatus × Nat × Option Nat :=
  (r.id, r.status, r.targetEntityId, r.approverPersonId)

theorem alreadyAsked_congr {t s : Table ApprovalRow} {r q : ApprovalRow}
    (hts : t.rows.map indexed = s.rows.map indexed) (hrq : indexed r = indexed q) :
    alreadyAsked t r = alreadyAsked s q := by
  have hany : ∀ t : Table ApprovalRow, ∀ r : ApprovalRow, alreadyAsked t r =
      ((indexed r).2.2.2.isSome && (t.rows.map indexed).any fun x =>
        x.2.1 == .pending && x.2.2.1 == (indexed r).2.2.1 && x.2.2.2 == (indexed r).2.2.2) := by
    intro t r
    rw [List.any_map]
    rfl
  rw [hany, hany, hts, hrq]

theorem insertApprovers_congr {rows rows' : List ApprovalRow} {t s t' : Table ApprovalRow}
    (hts : t.rows.map indexed = s.rows.map indexed) (hrows : rows.map indexed = rows'.map indexed)
    (h : insertApprovers t rows = .ok t') : ∃ s', insertApprovers s rows' = .ok s' := by
  induction rows generalizing t s rows' with
  | nil =>
    obtain rfl : rows' = [] := List.map_eq_nil_iff.mp hrows.symm
    exact ⟨s, rfl⟩
  | cons r rows ih =>
    obtain ⟨q, rows', rfl, hq, hrest⟩ := List.map_eq_cons_iff.mp hrows.symm
    simp only [insertApprovers, List.foldlM_cons] at h ⊢
    rw [alreadyAsked_congr hts hq.symm] at h
    by_cases hasked : alreadyAsked s q = true
    · rw [if_pos hasked] at h
      cases h
    rw [if_neg hasked] at h ⊢
    have hkeys : t.rows.map Keyed.key = s.rows.map Keyed.key := by
      have hids := congrArg (List.map Prod.fst) hts
      rwa [List.map_map, List.map_map] at hids
    have hid : r.id = q.id := (congrArg Prod.fst hq).symm
    rcases Table.insert?_congr hkeys hid with ⟨hnone, _⟩ | ⟨mid, mid', hmid, hmid', hmrows, hmrows'⟩
    · rw [hnone] at h
      cases h
    · rw [hmid] at h
      rw [hmid']
      refine ih ?_ hrest.symm h
      rw [hmrows, hmrows', List.map_append, List.map_append, hts, List.map_singleton,
        List.map_singleton, hq]

theorem insertApprovalRows_eq_ok {t t' : Table ApprovalRow} {rows : List ApprovalRow} :
    insertApprovalRows t rows = .ok t' ↔ insertApprovers t rows = .ok t' := by
  unfold insertApprovalRows
  cases insertApprovers t rows <;> simp

/-- The rows of a plan are inserted exactly when they are without their chains. -/
theorem exists_insert_unchained {t : Table ApprovalRow} {rows : List ApprovalRow} :
    (∃ t', insertApprovalRows t rows = .ok t') ↔
      ∃ t', insertApprovalRows t (rows.map unchained) = .ok t' := by
  have hindexed : rows.map indexed = (rows.map unchained).map indexed := by
    rw [List.map_map]
    rfl
  simp only [insertApprovalRows_eq_ok]
  constructor
  · rintro ⟨_, h⟩
    exact insertApprovers_congr rfl hindexed h
  · rintro ⟨_, h⟩
    exact insertApprovers_congr rfl hindexed.symm h

/-! ## What the two functions insert -/

section

variable {uuid : PlanUuid → Nat} {db db' : BookingDb} {input : BookingInput} {b : BookingRow}
  {plan : AttachPlan} {key : String} {now : Nat}

/-- The rows of the services, and the approvals `rows`. -/
structure ServicesInserted (uuid : PlanUuid → Nat) (db : BookingDb) (input : BookingInput)
    (plan : AttachPlan) (rows : List ApprovalRow) (db' : BookingDb) : Prop where
  orders : insertAll db.orders (plan.orders.map (orderRowOf uuid input)) = .ok db'.orders
  assets : insertAll db.assetReservations
    (plan.assetReservations.map (assetReservationRowOf uuid input)) = .ok db'.assetReservations
  lines : insertAll db.orderLineItems (plan.orderLineItems.map (orderLineItemRowOf uuid)) =
    .ok db'.orderLineItems
  approvals : insertApprovalRows db.approvals rows = .ok db'.approvals
  workOrders : db'.workOrders = db.workOrders
  domainEvents : db'.domainEvents = db.domainEvents

/-- The event that a booking was created. -/
def createdEvent (input : BookingInput) (key : String) (now : Nat) :
    Event BookingEventKey BookingEvent :=
  ⟨.bookingCreated input.bookingId key,
    .bookingCreated input.bookingId input.locationId input.status now⟩

theorem insertPlan_eq_ok : insertPlan uuid db input plan key now = .ok db' ↔
    insertAll db.bookings [bookingRowOf input] = .ok db'.bookings ∧
      insertAll db.slots (input.slots.map (slotRowOf input)) = .ok db'.slots ∧
        hasOverlap db'.slots = false ∧
          ServicesInserted uuid db input plan (plan.approvals.map (approvalRowOfPlan uuid now)) db' ∧
            emitAll db.outbox (setupEmits uuid input plan ++ [createdEvent input key now]) =
              .ok db'.outbox := by
  constructor
  · intro h
    simp only [insertPlan] at h
    split at h
    · cases h
    rename_i hbookings
    split at h
    · cases h
    rename_i hslots
    split at h
    · cases h
    rename_i hfree
    split at h
    · cases h
    rename_i horders
    split at h
    · cases h
    rename_i hassets
    split at h
    · cases h
    rename_i hlines
    split at h
    · cases h
    rename_i happrovals
    split at h
    · cases h
    rename_i hemit
    cases h
    exact ⟨hbookings, hslots, Bool.eq_false_iff.mpr hfree,
      ⟨horders, hassets, hlines, happrovals, rfl, rfl⟩, hemit⟩
  · rintro ⟨hbookings, hslots, hfree, hservices, hemit⟩
    unfold setupEmits createdEvent at hemit
    simp only [insertPlan, hbookings, hslots, hfree, Bool.false_eq_true, if_false, hservices.orders,
      hservices.assets, hservices.lines, hservices.approvals, hemit]
    rw [← hservices.workOrders, ← hservices.domainEvents]

theorem insertServices_eq_ok : insertServices uuid db b plan now = .ok db' ↔
    ServicesInserted uuid db b.input plan
        ((plan.approvals.map (approvalRowOfPlan uuid now)).map unchained) db' ∧
      emitAll db.outbox (setupEmits uuid b.input plan) = .ok db'.outbox ∧
        db'.bookings = db.bookings ∧ db'.slots = db.slots := by
  constructor
  · intro h
    simp only [insertServices] at h
    split at h
    · cases h
    rename_i horders
    split at h
    · cases h
    rename_i hassets
    split at h
    · cases h
    rename_i hlines
    split at h
    · cases h
    rename_i happrovals
    split at h
    · cases h
    rename_i hemit
    cases h
    exact ⟨⟨horders, hassets, hlines, happrovals, rfl, rfl⟩, hemit, rfl, rfl⟩
  · rintro ⟨hservices, hemit, hbookings, hslots⟩
    simp only [insertServices, hservices.orders, hservices.assets, hservices.lines,
      hservices.approvals, hemit]
    rw [← hservices.workOrders, ← hservices.domainEvents, ← hbookings, ← hslots]

theorem createThenAttach_eq_ok : createThenAttach uuid db input plan key now = .ok db' ↔
    insertAll db.bookings [bookingRowOf input] = .ok db'.bookings ∧
      insertAll db.slots (input.slots.map (slotRowOf input)) = .ok db'.slots ∧
        hasOverlap db'.slots = false ∧
          ServicesInserted uuid db input plan
              ((plan.approvals.map (approvalRowOfPlan uuid now)).map unchained) db' ∧
            ∃ mid, emitAll db.outbox [createdEvent input key now] = .ok mid ∧
              emitAll mid (setupEmits uuid input plan) = .ok db'.outbox := by
  constructor
  · intro h
    unfold createThenAttach at h
    split at h
    · cases h
    rename_i created hcreate
    obtain ⟨hbookings, hslots, hfree, hnone, hcreated⟩ := insertPlan_eq_ok.mp hcreate
    obtain ⟨hservices, hemit, hsame, hsame'⟩ := insertServices_eq_ok.mp h
    -- The creation leaves the tables of the services as they were.
    have horders : db.orders = created.orders := Except.ok.inj hnone.orders
    have hassets : db.assetReservations = created.assetReservations := Except.ok.inj hnone.assets
    have hlines : db.orderLineItems = created.orderLineItems := Except.ok.inj hnone.lines
    have happrovals : db.approvals = created.approvals := Except.ok.inj hnone.approvals
    refine ⟨?_, ?_, ?_, ⟨?_, ?_, ?_, ?_, ?_, ?_⟩, created.outbox, hcreated, hemit⟩
    · rw [hsame]
      exact hbookings
    · rw [hsame']
      exact hslots
    · rw [hsame']
      exact hfree
    · rw [horders]
      exact hservices.orders
    · rw [hassets]
      exact hservices.assets
    · rw [hlines]
      exact hservices.lines
    · rw [happrovals]
      exact hservices.approvals
    · rw [hservices.workOrders, hnone.workOrders]
    · rw [hservices.domainEvents, hnone.domainEvents]
  · rintro ⟨hbookings, hslots, hfree, hservices, mid, hcreated, hemit⟩
    have hcreate : insertPlan uuid db input noServices key now =
        .ok { db with bookings := db'.bookings, slots := db'.slots, outbox := mid } :=
      insertPlan_eq_ok.mpr ⟨hbookings, hslots, hfree, ⟨rfl, rfl, rfl, rfl, rfl, rfl⟩, hcreated⟩
    unfold createThenAttach
    rw [hcreate]
    exact insertServices_eq_ok.mpr ⟨⟨hservices.orders, hservices.assets, hservices.lines,
      hservices.approvals, hservices.workOrders, hservices.domainEvents⟩, hemit, rfl, rfl⟩

end

/-! ## The agreement -/

section

variable {outbox : BookingOutbox} {es : List (Event BookingEventKey BookingEvent)}
  {c : Event BookingEventKey BookingEvent}

theorem mem_emits {mid : BookingOutbox} (hmid : emitAll outbox [c] = .ok mid)
    (x : Event BookingEventKey BookingEvent) :
    x ∈ mid.rows ∨ x ∈ es ↔ x ∈ outbox.rows ∨ x ∈ es ++ [c] := by
  rw [mem_of_emitAll hmid, List.mem_append, or_assoc, or_comm (a := x ∈ [c])]

/-- The last event may as well be the first. -/
theorem exists_emitAll_swap : (∃ outbox', emitAll outbox (es ++ [c]) = .ok outbox') ↔
    ∃ mid, emitAll outbox [c] = .ok mid ∧ ∃ outbox', emitAll mid es = .ok outbox' := by
  rw [exists_emitAll_iff]
  constructor
  · intro h
    have hone : ∀ x, x ∈ outbox.rows ∨ x ∈ [c] → x ∈ outbox.rows ∨ x ∈ es ++ [c] := fun x hx =>
      hx.imp_right (List.mem_append_right es)
    obtain ⟨mid, hmid⟩ := exists_emitAll_iff.mpr fun x hx y hy => h x (hone x hx) y (hone y hy)
    refine ⟨mid, hmid, exists_emitAll_iff.mpr fun x hx y hy => ?_⟩
    exact h x ((mem_emits hmid x).mp hx) y ((mem_emits hmid y).mp hy)
  · rintro ⟨mid, hmid, hrest⟩ x hx y hy
    exact exists_emitAll_iff.mp hrest x ((mem_emits hmid x).mpr hx) y ((mem_emits hmid y).mpr hy)

end

/-- A booking that is created without services and then gets them is, up to the chains of its
approvals, the booking created with them; and one of the two ways is open when the other is. -/
theorem attachAgrees (uuid : PlanUuid → Nat) (db : BookingDb) (input : BookingInput)
    (plan : AttachPlan) (key : String) (now : Nat) :
    SameOutcome db.approvals (insertPlan uuid db input plan key now)
      (createThenAttach uuid db input plan key now) := by
  cases hone : insertPlan uuid db input plan key now with
  | ok one =>
    obtain ⟨hbookings, hslots, hfree, hservices, hemit⟩ := insertPlan_eq_ok.mp hone
    obtain ⟨approvals, happrovals⟩ := exists_insert_unchained.mp ⟨_, hservices.approvals⟩
    obtain ⟨mid, hcreated, outbox, hrest⟩ := exists_emitAll_swap.mp ⟨_, hemit⟩
    have htwo : createThenAttach uuid db input plan key now =
        .ok { one with approvals := approvals, outbox := outbox } :=
      createThenAttach_eq_ok.mpr ⟨hbookings, hslots, hfree, ⟨hservices.orders, hservices.assets,
        hservices.lines, happrovals, hservices.workOrders, hservices.domainEvents⟩, mid, hcreated,
        hrest⟩
    rw [htwo]
    refine ⟨⟨_, insertApprovalRows_rows hservices.approvals, insertApprovalRows_rows happrovals⟩,
      fun k => Option.ext fun e => ?_, rfl⟩
    rw [Table.get?_eq_some, Table.get?_eq_some, mem_of_emitAll hemit, mem_of_emitAll hrest,
      mem_emits hcreated]
  | error e =>
    cases htwo : createThenAttach uuid db input plan key now with
    | error e' => trivial
    | ok two =>
      obtain ⟨hbookings, hslots, hfree, hservices, mid, hcreated, hrest⟩ :=
        createThenAttach_eq_ok.mp htwo
      obtain ⟨approvals, happrovals⟩ := exists_insert_unchained.mpr ⟨_, hservices.approvals⟩
      obtain ⟨outbox, hemit⟩ := exists_emitAll_swap.mpr ⟨mid, hcreated, _, hrest⟩
      have hok : insertPlan uuid db input plan key now =
          .ok { two with approvals := approvals, outbox := outbox } :=
        insertPlan_eq_ok.mpr ⟨hbookings, hslots, hfree, ⟨hservices.orders, hservices.assets,
          hservices.lines, happrovals, hservices.workOrders, hservices.domainEvents⟩, hemit⟩
      rw [hone] at hok
      cases hok

end Prequest.Booking
