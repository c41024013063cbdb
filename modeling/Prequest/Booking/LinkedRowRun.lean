import Prequest.Booking.PlanRetry
import Prequest.Lib.Run

/-!
# Linked rows over many edits

A booking is moved again and again, and its linked rows with it. A row that has the
window of the booking gets its new window, and any other row is shifted by as much as
the start. Which of the two a row is shows only in its window at the time: a row with a
window of its own that begins with the booking has the booking's window as soon as the
booking is as long as the row.

* `RowsMovedAlong`, `rowsMovedAlong_run_iff`: the rows of a booking move along in every run of edits
  exactly when no edit changes the length of the booking while it is that of such a row.
-/

namespace Prequest.Booking

open Prequest.Lib

/-- The window of a booking or a slot: `check (end_at > start_at)`. -/
structure BookingWindow where
  startAt : Int
  endAt : Int
  nonempty : startAt < endAt
  deriving DecidableEq, Repr

namespace BookingWindow

def times (W : BookingWindow) : Int × Int := (W.startAt, W.endAt)

def length (W : BookingWindow) : Int := W.endAt - W.startAt

end BookingWindow

/-! ## One edit -/

structure LinkedState where
  window : BookingWindow
  db : BookingDb

/-- The move of an edit that changes the times and leaves the room. -/
def timeMove (spaceId : Nat) (W W' : BookingWindow) : SlotMove where
  oldSpaceId := spaceId
  oldStartAt := W.startAt
  oldEndAt := W.endAt
  newSpaceId := spaceId
  newStartAt := W'.startAt
  newEndAt := W'.endAt

def applyLinkedRowPatches (bookingId : Nat) (patches : LinkedRowPatches) (db : BookingDb) :
    BookingDb :=
  { db with
    assetReservations :=
      patches.assetReservationPatches.foldl (applyAssetPatch bookingId) db.assetReservations
    orders := patches.orderPatches.foldl (applyOrderPatch bookingId) db.orders
    workOrders := patches.workOrderSlaPatches.foldl (applyWorkOrderPatch bookingId) db.workOrders }

def editTimes (bookingId spaceId : Nat) (s : LinkedState) (W' : BookingWindow) : LinkedState where
  window := W'
  db := applyLinkedRowPatches bookingId
    (buildLinkedRowPatches s.db bookingId (timeMove spaceId s.window W')) s.db

/-! ## What is kept -/

/-- A row with the window of the booking still has it; another one keeps its length and its place in
the booking; neither becomes empty. -/
structure WindowMoved (W W' : BookingWindow) (w w' : Int × Int) : Prop where
  nonempty : w.1 < w.2 → w'.1 < w'.2
  aligned : w = W.times → w' = W'.times
  custom : w ≠ W.times → w'.2 - w'.1 = w.2 - w.1 ∧ w'.1 - W'.startAt = w.1 - W.startAt

def TimeMoved (W W' : BookingWindow) (t t' : Option Int) : Prop :=
  t' = t.map fun time => W'.startAt + (time - W.startAt)

def AssetMoved (bookingId : Nat) (W W' : BookingWindow) (r r' : AssetReservationRow) : Prop :=
  r' = { r with startAt := r'.startAt, endAt := r'.endAt } ∧
    if liveAsset bookingId r then WindowMoved W W' (r.startAt, r.endAt) (r'.startAt, r'.endAt)
    else r' = r

def OrderRow.window (o : OrderRow) : Option (Int × Int) :=
  match o.requestedForStartAt, o.requestedForEndAt with
  | some startAt, some endAt => some (startAt, endAt)
  | _, _ => none

def TimesMoved (W W' : BookingWindow) (o o' : OrderRow) : Prop :=
  match o.window with
  | some w => ∃ w', o'.window = some w' ∧ WindowMoved W W' w w'
  | none => TimeMoved W W' o.requestedForStartAt o'.requestedForStartAt ∧
      TimeMoved W W' o.requestedForEndAt o'.requestedForEndAt

def OrderMoved (bookingId : Nat) (W W' : BookingWindow) (o o' : OrderRow) : Prop :=
  o' = { o with
    requestedForStartAt := o'.requestedForStartAt
    requestedForEndAt := o'.requestedForEndAt } ∧
    if liveOrder bookingId o then TimesMoved W W' o o' else o' = o

def WorkOrderMoved (bookingId : Nat) (W W' : BookingWindow) (w w' : WorkOrderRow) : Prop :=
  w' = { w with plannedStartAt := w'.plannedStartAt } ∧
    if liveWorkOrder bookingId w then TimeMoved W W' w.plannedStartAt w'.plannedStartAt
    else w' = w

/-- All linked rows of a booking moved along from one state to a later one, no other row changed, and
where the booking is back the rows are. -/
structure RowsMovedAlong (bookingId : Nat) (s s' : LinkedState) : Prop where
  assets : List.Forall₂ (AssetMoved bookingId s.window s'.window) s.db.assetReservations.rows
    s'.db.assetReservations.rows
  orders : List.Forall₂ (OrderMoved bookingId s.window s'.window) s.db.orders.rows s'.db.orders.rows
  workOrders : List.Forall₂ (WorkOrderMoved bookingId s.window s'.window) s.db.workOrders.rows
    s'.db.workOrders.rows
  others : { s'.db with
    assetReservations := s.db.assetReservations
    orders := s.db.orders
    workOrders := s.db.workOrders } = s.db
  restored : s'.window = s.window → s'.db = s.db

/-- The windows of the live rows of a booking: its asset reservations, and its orders with both
times. -/
def linkedWindows (bookingId : Nat) (db : BookingDb) : List (Int × Int) :=
  ((db.assetReservations.rows.filter (liveAsset bookingId)).map fun r => (r.startAt, r.endAt)) ++
    (db.orders.rows.filter (liveOrder bookingId)).filterMap OrderRow.window

def BeginsWith (W : BookingWindow) (w : Int × Int) : Prop := w.1 = W.startAt ∧ w.2 ≠ W.endAt

/-- The edit leaves the booking as long as it is, or none of the windows that begin with the first
window of the booking is as long. -/
def KeepsLengthOrApart (W₀ : BookingWindow) (windows : List (Int × Int)) (W W' : BookingWindow) :
    Prop :=
  W'.length = W.length ∨ ∀ w ∈ windows, BeginsWith W₀ w → w.2 - w.1 ≠ W.length

/-! ## One row under one edit -/

section

variable {W₀ W W' : BookingWindow} {w₀ w : Int × Int}

theorem shiftWindow_aligned (spaceId : Nat) :
    (timeMove spaceId W W').shiftWindow W.startAt W.endAt = W'.times :=
  if_pos ⟨rfl, rfl⟩

theorem shiftWindow_custom (spaceId : Nat) (h : w ≠ W.times) :
    (timeMove spaceId W W').shiftWindow w.1 w.2 =
      (w.1 + (W'.startAt - W.startAt), w.2 + (W'.startAt - W.startAt)) :=
  if_neg fun heq => h (Prod.ext heq.1 heq.2)

theorem eq_times_of_length (hstart : w.1 = W.startAt) (hlength : w.2 - w.1 = W.length) :
    w = W.times := by
  unfold BookingWindow.length at hlength
  refine Prod.ext hstart ?_
  show w.2 = W.endAt
  omega

/-- A row that moved along does so in the next edit, unless it is taken for the booking's own window
and the booking gets another length. -/
theorem windowMoved_shift_iff (spaceId : Nat) (h : WindowMoved W₀ W w₀ w) :
    WindowMoved W₀ W' w₀ ((timeMove spaceId W W').shiftWindow w.1 w.2) ↔
      W'.length = W.length ∨ (BeginsWith W₀ w₀ → w₀.2 - w₀.1 ≠ W.length) := by
  by_cases haligned : w₀ = W₀.times
  · have hw := h.aligned haligned
    have hshift : (timeMove spaceId W W').shiftWindow w.1 w.2 = W'.times := by
      rw [hw]
      exact shiftWindow_aligned spaceId
    rw [hshift]
    refine iff_of_true ⟨fun _ => W'.nonempty, fun _ => rfl, fun hne => absurd haligned hne⟩ (Or.inr ?_)
    intro hbegins
    exact absurd (congrArg Prod.snd haligned) hbegins.2
  · obtain ⟨hlength, hoffset⟩ := h.custom haligned
    by_cases hmeets : w = W.times
    · -- The row is taken for one of the booking.
      have hshift : (timeMove spaceId W W').shiftWindow w.1 w.2 = W'.times := by
        rw [hmeets]
        exact shiftWindow_aligned spaceId
      have hstart : w.1 = W.startAt := congrArg Prod.fst hmeets
      have hend : w.2 = W.endAt := congrArg Prod.snd hmeets
      have hbegins : BeginsWith W₀ w₀ := by
        have hsame : w₀.1 = W₀.startAt := by omega
        exact ⟨hsame, fun heq => haligned (Prod.ext hsame heq)⟩
      have hlong : w₀.2 - w₀.1 = W.length := by
        unfold BookingWindow.length
        omega
      rw [hshift]
      constructor
      · intro hmoved
        have hkept := (hmoved.custom haligned).1
        exact Or.inl (hkept.trans hlong)
      · rintro (hkept | hapart)
        · refine ⟨fun _ => W'.nonempty, fun heq => absurd heq haligned, fun _ => ⟨?_, ?_⟩⟩
          · exact hkept.trans hlong.symm
          · show W'.startAt - W'.startAt = _
            rw [← hoffset, hstart, Int.sub_self, Int.sub_self]
        · exact absurd hlong (hapart hbegins)
    · rw [shiftWindow_custom spaceId hmeets]
      refine iff_of_true ⟨fun hne => ?_, fun heq => absurd heq haligned, fun _ => ⟨?_, ?_⟩⟩
        (Or.inr fun hbegins hlong => hmeets ?_)
      · have := h.nonempty hne
        show w.1 + _ < w.2 + _
        omega
      · show w.2 + _ - (w.1 + _) = _
        omega
      · show w.1 + _ - _ = _
        omega
      · have hstart := hbegins.1
        exact eq_times_of_length (by omega) (hlength.trans hlong)

theorem TimeMoved.shift (spaceId : Nat) {t₀ t : Option Int} (h : TimeMoved W₀ W t₀ t) :
    TimeMoved W₀ W' t₀ (t.map (· + (timeMove spaceId W W').startDelta)) := by
  unfold TimeMoved at h ⊢
  rw [h, Option.map_map]
  refine Option.map_congr fun time _ => ?_
  show W.startAt + (time - W₀.startAt) + (W'.startAt - W.startAt) = _
  omega

end

/-! ## One table under one edit -/

theorem forall₂_map_iff {α β : Type} {R R' : α → β → Prop} {f : β → β} {c : α → Prop} {as : List α}
    {bs : List β} (h : List.Forall₂ R as bs) (hstep : ∀ a b, R a b → (R' a (f b) ↔ c a)) :
    List.Forall₂ R' as (bs.map f) ↔ ∀ a ∈ as, c a := by
  induction h with
  | nil => simp
  | cons hab _ ih =>
    rw [List.map_cons, List.forall₂_cons, hstep _ _ hab, ih, List.forall_mem_cons]

section

variable {bookingId : Nat} {W₀ W W' : BookingWindow}

/-- The edit does not change the class of a row and its length at once. -/
def Apart (W₀ W W' : BookingWindow) (w₀ : Int × Int) : Prop :=
  W'.length = W.length ∨ (BeginsWith W₀ w₀ → w₀.2 - w₀.1 ≠ W.length)

theorem assetMoved_iff (spaceId : Nat) {r₀ r : AssetReservationRow} (h : AssetMoved bookingId W₀ W r₀ r) :
    AssetMoved bookingId W₀ W' r₀ ((assetMoves (timeMove spaceId W W') bookingId).moved r) ↔
      (liveAsset bookingId r₀ = true → Apart W₀ W W' (r₀.startAt, r₀.endAt)) := by
  obtain ⟨hframe, hmoved⟩ := h
  have hlive : liveAsset bookingId r = liveAsset bookingId r₀ := by rw [hframe]; rfl
  cases hlive₀ : liveAsset bookingId r₀ with
  | false =>
    rw [hlive₀, if_neg Bool.false_ne_true] at hmoved
    have hstays : (assetMoves (timeMove spaceId W W') bookingId).moved r = r :=
      if_neg (by rw [show (assetMoves (timeMove spaceId W W') bookingId).live r = _ from hlive,
        hlive₀]; exact Bool.false_ne_true)
    rw [hstays, hmoved]
    refine iff_of_true ⟨rfl, ?_⟩ (fun h => absurd h Bool.false_ne_true)
    rw [hlive₀, if_neg Bool.false_ne_true]
  | true =>
    rw [hlive₀, if_pos rfl] at hmoved
    have hnew : (assetMoves (timeMove spaceId W W') bookingId).moved r =
        { r with
          startAt := ((timeMove spaceId W W').shiftWindow r.startAt r.endAt).1
          endAt := ((timeMove spaceId W W').shiftWindow r.startAt r.endAt).2 } :=
      if_pos (hlive.trans hlive₀)
    unfold AssetMoved
    rw [hnew, hlive₀, if_pos rfl, windowMoved_shift_iff spaceId hmoved]
    constructor
    · exact fun h _ => h.2
    · intro h
      refine ⟨?_, h rfl⟩
      rw [hframe]

variable {o : OrderRow}

theorem window_eq_some {w : Int × Int} :
    o.window = some w ↔ o.requestedForStartAt = some w.1 ∧ o.requestedForEndAt = some w.2 := by
  unfold OrderRow.window
  cases o.requestedForStartAt with
  | none => simp
  | some startAt =>
    cases o.requestedForEndAt with
    | none => simp
    | some endAt => simp [Prod.ext_iff]

theorem orderTimes_window {m : SlotMove} {w : Int × Int} (h : o.window = some w) :
    m.orderTimes o = (some (m.shiftWindow w.1 w.2).1, some (m.shiftWindow w.1 w.2).2) := by
  obtain ⟨hstart, hend⟩ := window_eq_some.mp h
  simp only [SlotMove.orderTimes, hstart, hend]

theorem orderTimes_partial {m : SlotMove} (h : o.window = none) :
    m.orderTimes o = (o.requestedForStartAt.map (· + m.startDelta),
      o.requestedForEndAt.map (· + m.startDelta)) := by
  unfold OrderRow.window at h
  unfold SlotMove.orderTimes
  cases hstart : o.requestedForStartAt with
  | none => rfl
  | some startAt =>
    cases hend : o.requestedForEndAt with
    | none => rfl
    | some endAt =>
      rw [hstart, hend] at h
      cases h

theorem TimeMoved.isSome {t₀ t : Option Int} (h : TimeMoved W₀ W t₀ t) : t.isSome = t₀.isSome := by
  rw [TimeMoved] at h
  rw [h, Option.isSome_map]

theorem TimesMoved.window_none {o₀ : OrderRow} (h : TimesMoved W₀ W o₀ o)
    (hnone : o₀.window = none) : o.window = none := by
  simp only [TimesMoved, hnone] at h
  cases hw : o.window with
  | none => rfl
  | some w =>
    obtain ⟨hstart, hend⟩ := window_eq_some.mp hw
    have hstart₀ := h.1.isSome
    have hend₀ := h.2.isSome
    rw [hstart, Option.isSome_some] at hstart₀
    rw [hend, Option.isSome_some] at hend₀
    obtain ⟨startAt, hs⟩ := Option.isSome_iff_exists.mp hstart₀.symm
    obtain ⟨endAt, he⟩ := Option.isSome_iff_exists.mp hend₀.symm
    have hsome : o₀.window = some (startAt, endAt) := window_eq_some.mpr ⟨hs, he⟩
    rw [hnone] at hsome
    cases hsome

theorem timesMoved_iff (spaceId : Nat) {o₀ o' : OrderRow} (h : TimesMoved W₀ W o₀ o)
    (hstart : o'.requestedForStartAt = ((timeMove spaceId W W').orderTimes o).1)
    (hend : o'.requestedForEndAt = ((timeMove spaceId W W').orderTimes o).2) :
    TimesMoved W₀ W' o₀ o' ↔ ∀ w₀, o₀.window = some w₀ → Apart W₀ W W' w₀ := by
  cases hw₀ : o₀.window with
  | none =>
    have hcolumns := orderTimes_partial (m := timeMove spaceId W W') (h.window_none hw₀)
    rw [hcolumns] at hstart hend
    simp only [TimesMoved, hw₀] at h ⊢
    rw [hstart, hend]
    exact iff_of_true ⟨h.1.shift spaceId, h.2.shift spaceId⟩ nofun
  | some w₀ =>
    simp only [TimesMoved, hw₀] at h ⊢
    obtain ⟨w, hw, hmoved⟩ := h
    rw [orderTimes_window hw] at hstart hend
    have hw' : o'.window = some ((timeMove spaceId W W').shiftWindow w.1 w.2) :=
      window_eq_some.mpr ⟨hstart, hend⟩
    have hiff : WindowMoved W₀ W' w₀ ((timeMove spaceId W W').shiftWindow w.1 w.2) ↔
        Apart W₀ W W' w₀ := windowMoved_shift_iff spaceId hmoved
    constructor
    · rintro ⟨w', hsame, hnext⟩ _ heq
      cases heq
      rw [hw'] at hsame
      cases hsame
      exact hiff.mp hnext
    · exact fun hapart => ⟨_, hw', hiff.mpr (hapart w₀ rfl)⟩

theorem orderMoved_iff (spaceId : Nat) {o₀ : OrderRow} (h : OrderMoved bookingId W₀ W o₀ o) :
    OrderMoved bookingId W₀ W' o₀ ((orderMoves (timeMove spaceId W W') bookingId).moved o) ↔
      (liveOrder bookingId o₀ = true → ∀ w₀, o₀.window = some w₀ → Apart W₀ W W' w₀) := by
  obtain ⟨hframe, hmoved⟩ := h
  have hlive : liveOrder bookingId o = liveOrder bookingId o₀ := by rw [hframe]; rfl
  cases hlive₀ : liveOrder bookingId o₀ with
  | false =>
    rw [hlive₀, if_neg Bool.false_ne_true] at hmoved
    have hstays : (orderMoves (timeMove spaceId W W') bookingId).moved o = o :=
      if_neg (by rw [show (orderMoves (timeMove spaceId W W') bookingId).live o = _ from hlive,
        hlive₀]; exact Bool.false_ne_true)
    rw [hstays, hmoved]
    refine iff_of_true ⟨rfl, ?_⟩ (fun h => absurd h Bool.false_ne_true)
    rw [hlive₀, if_neg Bool.false_ne_true]
  | true =>
    rw [hlive₀, if_pos rfl] at hmoved
    obtain ⟨hstart, hend⟩ := requested_moved (m := timeMove spaceId W W') (hlive.trans hlive₀)
    have hnew : (orderMoves (timeMove spaceId W W') bookingId).moved o = { o with
        requestedForStartAt :=
          ((orderMoves (timeMove spaceId W W') bookingId).moved o).requestedForStartAt
        requestedForEndAt :=
          ((orderMoves (timeMove spaceId W W') bookingId).moved o).requestedForEndAt } := by
      have hrepoints : (timeMove spaceId W W').repoints o = false := by
        simp [SlotMove.repoints, timeMove]
      rw [show (orderMoves (timeMove spaceId W W') bookingId).moved o = _ from
        if_pos (hlive.trans hlive₀)]
      simp [orderMoves, SlotMove.orderPatch, hrepoints]
    unfold OrderMoved
    rw [hlive₀, if_pos rfl, timesMoved_iff spaceId hmoved hstart hend]
    constructor
    · exact fun h _ => h.2
    · intro h
      refine ⟨?_, h rfl⟩
      rw [hnew]
      rw [hframe]

theorem workOrderMoved_moved (spaceId : Nat) {w₀ w : WorkOrderRow}
    (h : WorkOrderMoved bookingId W₀ W w₀ w) :
    WorkOrderMoved bookingId W₀ W' w₀ ((workOrderMoves (timeMove spaceId W W') bookingId).moved w) := by
  obtain ⟨hframe, hmoved⟩ := h
  have hlive : liveWorkOrder bookingId w = liveWorkOrder bookingId w₀ := by rw [hframe]; rfl
  cases hlive₀ : liveWorkOrder bookingId w₀ with
  | false =>
    rw [hlive₀, if_neg Bool.false_ne_true] at hmoved
    have hstays : (workOrderMoves (timeMove spaceId W W') bookingId).moved w = w :=
      if_neg (by rw [show (workOrderMoves (timeMove spaceId W W') bookingId).live w = _ from hlive,
        hlive₀]; exact Bool.false_ne_true)
    rw [hstays, hmoved]
    refine ⟨rfl, ?_⟩
    rw [hlive₀, if_neg Bool.false_ne_true]
  | true =>
    rw [hlive₀, if_pos rfl] at hmoved
    have hnew : (workOrderMoves (timeMove spaceId W W') bookingId).moved w =
        { w with plannedStartAt :=
            w.plannedStartAt.map (· + (timeMove spaceId W W').startDelta) } := by
      rw [show (workOrderMoves (timeMove spaceId W W') bookingId).moved w = _ from
        if_pos (hlive.trans hlive₀)]
      cases hplanned : w.plannedStartAt with
      | none =>
        have hnone : w = { w with plannedStartAt := none } := by rw [← hplanned]
        simp only [workOrderMoves, SlotMove.workOrderPatch, hplanned, Option.map_none,
          Option.getD_none]
        exact hnone
      | some plannedStartAt => simp [workOrderMoves, SlotMove.workOrderPatch, hplanned]
    rw [hnew]
    refine ⟨?_, ?_⟩
    · rw [hframe]
    · rw [hlive₀, if_pos rfl]
      exact hmoved.shift spaceId

end

/-! ## All tables under one edit -/

section

variable {bookingId : Nat}

theorem rows_editTimes (spaceId : Nat) (s : LinkedState) (W' : BookingWindow) :
    (editTimes bookingId spaceId s W').db.assetReservations.rows =
        s.db.assetReservations.rows.map
          (assetMoves (timeMove spaceId s.window W') bookingId).moved ∧
      (editTimes bookingId spaceId s W').db.orders.rows =
        s.db.orders.rows.map (orderMoves (timeMove spaceId s.window W') bookingId).moved ∧
      (editTimes bookingId spaceId s W').db.workOrders.rows =
        s.db.workOrders.rows.map
          (workOrderMoves (timeMove spaceId s.window W') bookingId).moved := by
  refine ⟨?_, ?_, ?_⟩
  · refine (assetMoves (timeMove spaceId s.window W') bookingId).rows ?_
    refine (List.perm_insertionSort _ _).trans ?_
    show List.Perm _ ((s.db.assetReservations.rows.filter (liveAsset bookingId)).filterMap
      (some ∘ (timeMove spaceId s.window W').assetPatch))
    rw [List.filterMap_eq_map]
  · refine (orderMoves (timeMove spaceId s.window W') bookingId).rows ?_
    refine (List.perm_insertionSort _ _).trans ?_
    show List.Perm _ ((s.db.orders.rows.filter (liveOrder bookingId)).filterMap
      (some ∘ (timeMove spaceId s.window W').orderPatch))
    rw [List.filterMap_eq_map]
  · refine (workOrderMoves (timeMove spaceId s.window W') bookingId).rows ?_
    exact List.perm_insertionSort _ _

variable {W : BookingWindow}

theorem WindowMoved.eq_of_back {w w' : Int × Int} (h : WindowMoved W W w w') : w' = w := by
  by_cases haligned : w = W.times
  · exact (h.aligned haligned).trans haligned.symm
  · obtain ⟨hlength, hoffset⟩ := h.custom haligned
    exact Prod.ext (by omega) (by omega)

theorem TimeMoved.eq_of_back {t t' : Option Int} (h : TimeMoved W W t t') : t' = t := by
  rw [h]
  cases t with
  | none => rfl
  | some time =>
    show some (W.startAt + (time - W.startAt)) = some time
    congr 1
    omega

theorem AssetMoved.eq_of_back {r r' : AssetReservationRow}
    (h : AssetMoved bookingId W W r r') : r' = r := by
  obtain ⟨hframe, hmoved⟩ := h
  split at hmoved
  · obtain ⟨hstart, hend⟩ := Prod.mk.inj hmoved.eq_of_back
    rw [hframe, hstart, hend]
  · exact hmoved

theorem OrderMoved.eq_of_back {o o' : OrderRow} (h : OrderMoved bookingId W W o o') : o' = o := by
  obtain ⟨hframe, hmoved⟩ := h
  split at hmoved
  · have htimes : o'.requestedForStartAt = o.requestedForStartAt ∧
        o'.requestedForEndAt = o.requestedForEndAt := by
      cases hw : o.window with
      | none =>
        simp only [TimesMoved, hw] at hmoved
        exact ⟨hmoved.1.eq_of_back, hmoved.2.eq_of_back⟩
      | some w =>
        simp only [TimesMoved, hw] at hmoved
        obtain ⟨w', hw', hback⟩ := hmoved
        obtain ⟨hstart, hend⟩ := window_eq_some.mp hw
        obtain ⟨hstart', hend'⟩ := window_eq_some.mp hw'
        rw [hstart, hend, hstart', hend', hback.eq_of_back]
        exact ⟨rfl, rfl⟩
    rw [hframe, htimes.1, htimes.2]
  · exact hmoved

theorem WorkOrderMoved.eq_of_back {w w' : WorkOrderRow}
    (h : WorkOrderMoved bookingId W W w w') : w' = w := by
  obtain ⟨hframe, hmoved⟩ := h
  split at hmoved
  · rw [hframe, hmoved.eq_of_back]
  · exact hmoved

theorem table_eq_of_forall₂ {ρ : Type} [Keyed ρ Nat] {R : ρ → ρ → Prop} {t t' : Table ρ}
    (h : List.Forall₂ R t.rows t'.rows) (hR : ∀ r r', R r r' → r' = r) : t' = t := by
  have hrows : t'.rows = t.rows := by
    generalize t.rows = rows at h
    generalize t'.rows = rows' at h
    induction h with
    | nil => rfl
    | cons hab _ ih => rw [hR _ _ hab, ih]
  cases t
  cases t'
  cases hrows
  rfl

theorem restored_of_moved {s s' : LinkedState} (hwindow : s'.window = s.window)
    (hassets : List.Forall₂ (AssetMoved bookingId s.window s'.window) s.db.assetReservations.rows
      s'.db.assetReservations.rows)
    (horders : List.Forall₂ (OrderMoved bookingId s.window s'.window) s.db.orders.rows
      s'.db.orders.rows)
    (hworkOrders : List.Forall₂ (WorkOrderMoved bookingId s.window s'.window) s.db.workOrders.rows
      s'.db.workOrders.rows)
    (hothers : { s'.db with
      assetReservations := s.db.assetReservations
      orders := s.db.orders
      workOrders := s.db.workOrders } = s.db) : s'.db = s.db := by
  rw [hwindow] at hassets horders hworkOrders
  rw [← hothers, ← table_eq_of_forall₂ hassets fun _ _ h => h.eq_of_back,
    ← table_eq_of_forall₂ horders fun _ _ h => h.eq_of_back,
    ← table_eq_of_forall₂ hworkOrders fun _ _ h => h.eq_of_back]

/-- Rows that moved along do so in the next edit exactly when it leaves the length of the booking, or
no window that begins with it is as long. -/
theorem rowsMovedAlong_editTimes_iff (spaceId : Nat) {s₀ s : LinkedState}
    (h : RowsMovedAlong bookingId s₀ s) (W' : BookingWindow) :
    RowsMovedAlong bookingId s₀ (editTimes bookingId spaceId s W') ↔
      KeepsLengthOrApart s₀.window (linkedWindows bookingId s₀.db) s.window W' := by
  obtain ⟨hassets, horders, hworkOrders⟩ := @rows_editTimes bookingId spaceId s W'
  have hasset : List.Forall₂ (AssetMoved bookingId s₀.window W') s₀.db.assetReservations.rows
      (editTimes bookingId spaceId s W').db.assetReservations.rows ↔
        ∀ r ∈ s₀.db.assetReservations.rows, liveAsset bookingId r = true →
          Apart s₀.window s.window W' (r.startAt, r.endAt) := by
    rw [hassets]
    exact forall₂_map_iff h.assets fun _ _ hr => assetMoved_iff spaceId hr
  have horder : List.Forall₂ (OrderMoved bookingId s₀.window W') s₀.db.orders.rows
      (editTimes bookingId spaceId s W').db.orders.rows ↔
        ∀ o ∈ s₀.db.orders.rows, liveOrder bookingId o = true →
          ∀ w, o.window = some w → Apart s₀.window s.window W' w := by
    rw [horders]
    exact forall₂_map_iff h.orders fun _ _ ho => orderMoved_iff spaceId ho
  have hwindows : KeepsLengthOrApart s₀.window (linkedWindows bookingId s₀.db) s.window W' ↔
      ∀ w ∈ linkedWindows bookingId s₀.db, Apart s₀.window s.window W' w := by
    unfold KeepsLengthOrApart Apart
    constructor
    · rintro (hlength | hapart) w hw
      · exact Or.inl hlength
      · exact Or.inr (hapart w hw)
    · intro hall
      by_cases hlength : W'.length = s.window.length
      · exact Or.inl hlength
      · exact Or.inr fun w hw => (hall w hw).resolve_left hlength
  rw [hwindows]
  constructor
  · intro hmoved w hw
    rcases List.mem_append.mp hw with hw | hw
    · obtain ⟨r, hr, rfl⟩ := List.mem_map.mp hw
      obtain ⟨hr, hlive⟩ := List.mem_filter.mp hr
      exact hasset.mp hmoved.assets r hr hlive
    · obtain ⟨o, ho, hwindow⟩ := List.mem_filterMap.mp hw
      obtain ⟨ho, hlive⟩ := List.mem_filter.mp ho
      exact horder.mp hmoved.orders o ho hlive w hwindow
  · intro hall
    have hassets' := hasset.mpr fun r hr hlive => hall _ (List.mem_append_left _
      (List.mem_map.mpr ⟨r, List.mem_filter.mpr ⟨hr, hlive⟩, rfl⟩))
    have horders' := horder.mpr fun o ho hlive w hw => hall w (List.mem_append_right _
      (List.mem_filterMap.mpr ⟨o, List.mem_filter.mpr ⟨ho, hlive⟩, hw⟩))
    have hworkOrders' : List.Forall₂ (WorkOrderMoved bookingId s₀.window W') s₀.db.workOrders.rows
        (editTimes bookingId spaceId s W').db.workOrders.rows := by
      rw [hworkOrders, List.forall₂_map_right_iff]
      exact h.workOrders.imp fun _ _ hw => workOrderMoved_moved spaceId hw
    exact ⟨hassets', horders', hworkOrders', h.others, fun hwindow =>
      restored_of_moved hwindow hassets' horders' hworkOrders' h.others⟩

end

/-! ## Every run of edits -/

theorem RowsMovedAlong.refl (bookingId : Nat) (s : LinkedState) : RowsMovedAlong bookingId s s := by
  have hwindow : ∀ w, WindowMoved s.window s.window w w := fun w =>
    ⟨id, id, fun _ => ⟨rfl, rfl⟩⟩
  have htime : ∀ t, TimeMoved s.window s.window t t := by
    intro t
    cases t with
    | none => rfl
    | some time =>
      show some time = some (s.window.startAt + (time - s.window.startAt))
      congr 1
      omega
  refine ⟨List.forall₂_same.mpr fun r _ => ⟨rfl, ?_⟩, List.forall₂_same.mpr fun o _ => ⟨rfl, ?_⟩,
    List.forall₂_same.mpr fun w _ => ⟨rfl, ?_⟩, rfl, fun _ => rfl⟩
  · split
    · exact hwindow _
    · rfl
  · split
    · unfold TimesMoved
      cases hw : o.window with
      | none => exact ⟨htime _, htime _⟩
      | some w => exact ⟨w, rfl, hwindow w⟩
    · rfl
  · split
    · exact htime _
    · rfl

/-- In every run of edits of the times the linked rows move along with the booking exactly when no
edit changes the length of the booking while it is that of a row that begins with the booking and
does not end with it. -/
theorem rowsMovedAlong_run_iff (bookingId spaceId : Nat) (s : LinkedState)
    (edits : List BookingWindow) :
    (∀ made rest, edits = made ++ rest →
      RowsMovedAlong bookingId s (run (editTimes bookingId spaceId) s made)) ↔
        Guarded (fun _ W => W) (KeepsLengthOrApart s.window (linkedWindows bookingId s.db)) s.window
          edits := by
  have hguards : ∀ (s' : LinkedState) (edits : List BookingWindow),
      Guarded (editTimes bookingId spaceId)
          (fun t W => KeepsLengthOrApart s.window (linkedWindows bookingId s.db) t.window W) s' edits ↔
        Guarded (fun _ W => W) (KeepsLengthOrApart s.window (linkedWindows bookingId s.db)) s'.window
          edits := by
    intro s' edits
    induction edits generalizing s' with
    | nil => rfl
    | cons W edits ih => exact and_congr_right fun _ => ih (editTimes bookingId spaceId s' W)
  rw [← hguards]
  refine invariant_iff_guarded (P := fun _ _ => True) ?_ (RowsMovedAlong.refl bookingId s) ?_
  · exact fun t W ht _ => rowsMovedAlong_editTimes_iff spaceId ht W
  · exact guarded_iff.mpr fun _ _ _ _ => trivial

/-! ## A row as long as the booking -/

/-- A booking of two hours, and equipment for the first of them. -/
def firstHourOnly : LinkedState where
  window := ⟨0, 120, by decide⟩
  db := { emptyDb with
    assetReservations :=
      ⟨[{ id := 1, bookingId := some 1, status := .confirmed, startAt := 0, endAt := 60 }], by simp⟩ }

/-- Shortened to an hour and made two hours again, the booking has the equipment for both. -/
theorem firstHourOnly_stretched :
    ¬∀ (bookingId spaceId : Nat) (s : LinkedState) (edits made rest : List BookingWindow),
      edits = made ++ rest →
        RowsMovedAlong bookingId s (run (editTimes bookingId spaceId) s made) := by
  intro hall
  have hback := (hall 1 1 firstHourOnly [⟨0, 60, by decide⟩, ⟨0, 120, by decide⟩]
    [⟨0, 60, by decide⟩, ⟨0, 120, by decide⟩] [] rfl).restored rfl
  have hrows := congrArg (fun db : BookingDb => db.assetReservations.rows) hback
  revert hrows
  decide

end Prequest.Booking
