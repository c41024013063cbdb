import Prequest.Lib.Jsonb
import Prequest.Lib.Loop

/-!
# Hashing without what the server stamps

The idempotency hash of a command is taken of its payload without the fields that the
server stamps at each call. An edit of a booking leaves three keys out of every object.
A dispatch leaves `due_at` out of the elements of arrays under a key `timers`, with the
operator `-`, which raises on a scalar and takes strings out of an array.

* `stripLaws_iff`: each ignores exactly its fields, keeps the arrays and returns, exactly when
  the timers are objects, or arrays without the text `due_at`.
-/

namespace Prequest.Shared

open Prequest.Lib Prequest.Lib.JsonTree

variable {ν : Type}

/-! ## The edit of a booking -/

def preStateKeys : List String := ["_resolution_at", "old_outcome", "chain_config_changed"]

mutual

/-- `booking_edit_strip_hash_server_fields`. -/
def bookingEditStrip : JsonTree ν → JsonTree ν
  | .object fields => .object (objectAgg (bookingEditStripFields fields))
  | .array xs => .array (bookingEditStripElements xs)
  | .scalar s => .scalar s

def bookingEditStripFields : List (String × JsonTree ν) → List (String × JsonTree ν)
  | [] => []
  | (key, value) :: rest =>
      if preStateKeys.contains key then bookingEditStripFields rest
      else (key, bookingEditStrip value) :: bookingEditStripFields rest

def bookingEditStripElements : List (JsonTree ν) → List (JsonTree ν)
  | [] => []
  | value :: rest => bookingEditStrip value :: bookingEditStripElements rest

end

/-! ## The dispatch -/

mutual

/-- `dispatch_strip_hash_server_fields`. -/
def dispatchStrip : JsonTree ν → Except JsonbError (JsonTree ν)
  | .object fields => (dispatchStripFields fields).map fun pairs => .object (objectAgg pairs)
  | .array xs => (dispatchStripElements xs).map .array
  | .scalar s => .ok (.scalar s)
termination_by v => sizeOf v

def dispatchStripFields :
    List (String × JsonTree ν) → Except JsonbError (List (String × JsonTree ν))
  | [] => .ok []
  | (key, value) :: rest => do
      let stripped ← dispatchStripValue key value
      let others ← dispatchStripFields rest
      pure ((key, stripped) :: others)
termination_by fields => sizeOf fields

def dispatchStripValue (key : String) : JsonTree ν → Except JsonbError (JsonTree ν)
  | .array elems =>
      if key = "timers" then (dispatchStripTimers elems).map .array
      else dispatchStrip (.array elems)
  | value => dispatchStrip value
termination_by value => sizeOf value + 1

def dispatchStripElements : List (JsonTree ν) → Except JsonbError (List (JsonTree ν))
  | [] => .ok []
  | value :: rest => do
      let stripped ← dispatchStrip value
      let others ← dispatchStripElements rest
      pure (stripped :: others)
termination_by xs => sizeOf xs

def dispatchStripTimers : List (JsonTree ν) → Except JsonbError (List (JsonTree ν))
  | [] => .ok []
  | elem :: rest => do
      match _h : elem.deleteText "due_at" with
      | .error e => .error e
      | .ok trimmed =>
          let stripped ← dispatchStrip trimmed
          let others ← dispatchStripTimers rest
          pure (stripped :: others)
termination_by elems => sizeOf elems
decreasing_by
  · have hle := sizeOf_deleteText_le _h
    simp only [List.cons.sizeOf_spec]
    omega
  · simp only [List.cons.sizeOf_spec]
    omega

end

/-! ## The law -/

section

variable (path : List PathStep)

def PreStatePath : Prop := ∃ k ∈ preStateKeys, PathStep.key k ∈ path

/-- The path is to the `due_at` of an element of an array under a key `timers`, or into one. -/
def DueAtPath : Prop :=
  ∃ before i after, path = before ++ [.key "timers", .index i, .key "due_at"] ++ after

/-- The path is to an element of an array under a key `timers`. -/
def TimerPath : Prop :=
  ∃ before i, path = before ++ [.key "timers", .index i]

end

def AlikeBut (ignored : List PathStep → Prop) (a b : JsonTree ν) : Prop :=
  ∀ path, ¬ignored path → a.view path = b.view path

/-- The function returns, changes nothing at all other paths, arrays and their lengths included,
leaves nothing at those, and changes nothing more when it is applied again. -/
structure KeepsRest (strip : JsonTree ν → Except JsonbError (JsonTree ν))
    (ignored : List PathStep → Prop) (a : JsonTree ν) : Prop where
  returns : ∃ v, strip a = .ok v
  idempotent : ∀ v, strip a = .ok v → strip v = .ok v
  kept : ∀ v, strip a = .ok v → AlikeBut ignored v a
  deleted : ∀ v, strip a = .ok v → ∀ path, ignored path → v.view path = none

/-- And it maps two values to one exactly when they look alike at all other paths. -/
structure StripLaw (strip : JsonTree ν → Except JsonbError (JsonTree ν))
    (ignored : List PathStep → Prop) (a b : JsonTree ν) : Prop where
  left : KeepsRest strip ignored a
  right : KeepsRest strip ignored b
  same : strip a = strip b ↔ AlikeBut ignored a b

/-- The elements of arrays under a key `timers` are objects, or arrays that do not hold the text
`due_at`; elements inside a `due_at` that is left out do not count. -/
def TimersHold (v : JsonTree ν) : Prop :=
  ∀ path, ¬DueAtPath path → TimerPath path →
    (∀ s, v.at? path ≠ some (.scalar s)) ∧
      ∀ xs, v.at? path = some (.array xs) → JsonTree.scalar (.string "due_at") ∉ xs

/-! ## The fields by the paths to them -/

/-- An edit leaves out the keys of the state before. -/
def preStateRule : PathRule Unit where
  onKey _ k := if preStateKeys.contains k then none else some ()
  onIndex _ := ()

/-- Where a walk is: at an array under a key `timers`, at an element of one, or elsewhere. -/
inductive TimerPlace where
  | elsewhere
  | timers
  | element
  deriving DecidableEq, Repr

/-- A dispatch leaves out `due_at` of an element. -/
def dueAtRule : PathRule TimerPlace where
  onKey place k :=
    if place = .element ∧ k = "due_at" then none
    else some (if k = "timers" then .timers else .elsewhere)
  onIndex place := if place = .timers then .element else .elsewhere

theorem follow_preStateRule (path : List PathStep) :
    (preStateRule.follow () path).isSome = true ↔ ¬PreStatePath path := by
  induction path with
  | nil => simp [PathRule.follow, PreStatePath]
  | cons step path ih =>
    cases step with
    | index i =>
      have hrest : PreStatePath (.index i :: path) ↔ PreStatePath path := by simp [PreStatePath]
      rw [PathRule.follow, hrest]
      exact ih
    | key k =>
      have hrest : PreStatePath (.key k :: path) ↔ k ∈ preStateKeys ∨ PreStatePath path := by
        simp only [PreStatePath, List.mem_cons, PathStep.key.injEq, and_or_left, exists_or,
          exists_eq_right]
      rw [PathRule.follow, hrest, not_or]
      by_cases hk : k ∈ preStateKeys
      · simp [preStateRule, hk]
      · have hgoes : preStateRule.onKey () k = some () := by simp [preStateRule, hk]
        rw [hgoes, Option.bind_some, ih]
        exact (and_iff_right hk).symm

variable {path : List PathStep}

theorem dueAtPath_cons {step : PathStep} : DueAtPath (step :: path) ↔
      (step = .key "timers" ∧ ∃ i after, path = .index i :: .key "due_at" :: after) ∨
        DueAtPath path := by
  constructor
  · rintro ⟨before, i, after, heq⟩
    cases before with
    | nil =>
      obtain ⟨rfl, rfl⟩ := List.cons.inj heq
      exact Or.inl ⟨rfl, i, after, rfl⟩
    | cons first before =>
      obtain ⟨rfl, rfl⟩ := List.cons.inj heq
      exact Or.inr ⟨before, i, after, rfl⟩
  · rintro (⟨rfl, i, after, rfl⟩ | ⟨before, i, after, rfl⟩)
    · exact ⟨[], i, after, rfl⟩
    · exact ⟨step :: before, i, after, rfl⟩

theorem timerPath_cons {step : PathStep} :
    TimerPath (step :: path) ↔ (step = .key "timers" ∧ ∃ i, path = [.index i]) ∨ TimerPath path := by
  constructor
  · rintro ⟨before, i, heq⟩
    cases before with
    | nil =>
      obtain ⟨rfl, rfl⟩ := List.cons.inj heq
      exact Or.inl ⟨rfl, i, rfl⟩
    | cons first before =>
      obtain ⟨rfl, rfl⟩ := List.cons.inj heq
      exact Or.inr ⟨before, i, rfl⟩
  · rintro (⟨rfl, i, rfl⟩ | ⟨before, i, rfl⟩)
    · exact ⟨[], i, rfl⟩
    · exact ⟨step :: before, i, rfl⟩

def DueAtAhead (place : TimerPlace) (path : List PathStep) : Prop :=
  DueAtPath path ∨ (place = .timers ∧ ∃ i after, path = .index i :: .key "due_at" :: after) ∨
    (place = .element ∧ ∃ after, path = .key "due_at" :: after)

def TimerAhead (place : TimerPlace) (path : List PathStep) : Prop :=
  TimerPath path ∨ (place = .timers ∧ ∃ i, path = [.index i]) ∨ (place = .element ∧ path = [])

section

variable {place : TimerPlace} {path : List PathStep} {i : Nat} {k : String}

theorem dueAtAhead_index :
    DueAtAhead place (.index i :: path) ↔ DueAtAhead (dueAtRule.onIndex place) path := by
  cases place <;> simp [DueAtAhead, dueAtPath_cons, dueAtRule]

theorem dueAtAhead_key (hgoes : ¬(place = .element ∧ k = "due_at")) :
    DueAtAhead place (.key k :: path) ↔
      DueAtAhead (if k = "timers" then .timers else .elsewhere) path := by
  by_cases htimers : k = "timers"
  · subst htimers
    cases place <;> simp [DueAtAhead, dueAtPath_cons, or_comm]
  · cases place
    · simp [DueAtAhead, dueAtPath_cons, htimers]
    · simp [DueAtAhead, dueAtPath_cons, htimers]
    · have hother : k ≠ "due_at" := fun h => hgoes ⟨rfl, h⟩
      simp [DueAtAhead, dueAtPath_cons, htimers, hother]

theorem timerAhead_index :
    TimerAhead place (.index i :: path) ↔ TimerAhead (dueAtRule.onIndex place) path := by
  cases place <;> simp [TimerAhead, timerPath_cons, dueAtRule]

theorem timerAhead_key :
    TimerAhead place (.key k :: path) ↔
      TimerAhead (if k = "timers" then .timers else .elsewhere) path := by
  by_cases htimers : k = "timers"
  · subst htimers
    cases place <;> simp [TimerAhead, timerPath_cons, or_comm]
  · cases place <;> simp [TimerAhead, timerPath_cons, htimers]

end

variable {place : TimerPlace} {v : JsonTree ν} {fields : List (String × JsonTree ν)}

theorem onKey_dueAtRule {k : String} (hgoes : ¬(place = .element ∧ k = "due_at")) :
    dueAtRule.onKey place k = some (if k = "timers" then .timers else .elsewhere) := if_neg hgoes

theorem follow_dueAtRule (place : TimerPlace) (path : List PathStep) :
    ((dueAtRule.follow place path).isSome = true ↔ ¬DueAtAhead place path) ∧
      (dueAtRule.follow place path = some .element ↔
        ¬DueAtAhead place path ∧ TimerAhead place path) := by
  induction path generalizing place with
  | nil =>
    have hdue : ¬DueAtAhead place [] := by simp [DueAtAhead, DueAtPath]
    have htimer : TimerAhead place [] ↔ place = .element := by simp [TimerAhead, TimerPath]
    rw [htimer]
    simp [PathRule.follow, hdue]
  | cons step path ih =>
    cases step with
    | index i =>
      rw [PathRule.follow, dueAtAhead_index, timerAhead_index]
      exact ih _
    | key k =>
      rw [PathRule.follow]
      by_cases hgoes : place = .element ∧ k = "due_at"
      · have hdue : DueAtAhead place (.key k :: path) :=
          Or.inr (Or.inr ⟨hgoes.1, path, by rw [hgoes.2]⟩)
        have hnone : dueAtRule.onKey place k = none := if_pos hgoes
        simp [hnone, hdue]
      · rw [onKey_dueAtRule hgoes, Option.bind_some, dueAtAhead_key hgoes, timerAhead_key]
        exact ih _

theorem dueAtAhead_elsewhere : DueAtAhead .elsewhere path ↔ DueAtPath path := by simp [DueAtAhead]

theorem timerAhead_elsewhere : TimerAhead .elsewhere path ↔ TimerPath path := by simp [TimerAhead]

/-! ## The edit prunes -/

theorem bookingEditStripElements_eq (xs : List (JsonTree ν)) :
    bookingEditStripElements xs = xs.map bookingEditStrip := by
  induction xs with
  | nil => rfl
  | cons x xs ih => rw [bookingEditStripElements, ih, List.map_cons]

theorem bookingEditStripFields_eq
    (h : ∀ p ∈ fields, bookingEditStrip p.2 = prune preStateRule () p.2) :
    bookingEditStripFields fields = pruneFields preStateRule () fields := by
  induction fields with
  | nil => rfl
  | cons p fields ih =>
    obtain ⟨k, x⟩ := p
    have hx := h (k, x) List.mem_cons_self
    have hrest := ih fun q hq => h q (List.mem_cons_of_mem _ hq)
    rw [bookingEditStripFields, pruneFields, hrest]
    cases hk : preStateKeys.contains k with
    | true =>
      have hgives : preStateRule.onKey () k = none := if_pos hk
      rw [hgives, if_pos rfl]
    | false =>
      have hgoes : preStateRule.onKey () k = some () := if_neg (Bool.eq_false_iff.mp hk)
      rw [hgoes, if_neg Bool.false_ne_true]
      exact congrArg (fun y => (k, y) :: pruneFields preStateRule () fields) hx

theorem bookingEditStrip_eq_prune (h : Canonical v) :
    bookingEditStrip v = prune preStateRule () v := by
  induction h with
  | scalar s => rfl
  | array _ ih =>
    rw [bookingEditStrip, prune, bookingEditStripElements_eq, pruneElements_eq]
    exact congrArg JsonTree.array (List.map_congr_left ih)
  | object hordered _ ih =>
    rw [bookingEditStrip, prune, bookingEditStripFields_eq ih,
      objectAgg_of_ordered (ordered_pruneFields _ _ hordered)]

/-! ## What the dispatch does at a place -/

def stripAt : TimerPlace → JsonTree ν → Except JsonbError (JsonTree ν)
  | .elsewhere, v => dispatchStrip v
  | .timers, v => dispatchStripValue "timers" v
  | .element, v => v.deleteText "due_at" >>= dispatchStrip

def placeOf (k : String) : TimerPlace := if k = "timers" then .timers else .elsewhere

theorem dispatchStripValue_eq (k : String) (v : JsonTree ν) :
    dispatchStripValue k v = stripAt (placeOf k) v := by
  by_cases htimers : k = "timers"
  · rw [htimers]
    rfl
  · rw [placeOf, if_neg htimers, stripAt]
    cases v with
    | array xs => rw [dispatchStripValue, if_neg htimers]
    | scalar s =>
      rw [dispatchStripValue]
      exact fun _ h => by cases h
    | object fields =>
      rw [dispatchStripValue]
      exact fun _ h => by cases h

theorem dispatchStripElements_eq (xs : List (JsonTree ν)) :
    dispatchStripElements xs = xs.mapM (stripAt .elsewhere) := by
  induction xs with
  | nil => rw [dispatchStripElements, List.mapM_nil]; rfl
  | cons x xs ih => rw [dispatchStripElements, List.mapM_cons, ih]; rfl

theorem dispatchStripTimers_eq (xs : List (JsonTree ν)) :
    dispatchStripTimers xs = xs.mapM (stripAt .element) := by
  induction xs with
  | nil => rw [dispatchStripTimers, List.mapM_nil]; rfl
  | cons x xs ih =>
    rw [dispatchStripTimers, List.mapM_cons, ih, stripAt]
    split
    · rename_i e herror
      rw [herror]
      rfl
    · rename_i trimmed hok
      rw [hok]
      rfl

theorem dispatchStripFields_eq (fields : List (String × JsonTree ν)) :
    dispatchStripFields fields =
      fields.mapM fun p => (stripAt (placeOf p.1) p.2).map fun w => (p.1, w) := by
  induction fields with
  | nil => rw [dispatchStripFields, List.mapM_nil]; rfl
  | cons p fields ih =>
    obtain ⟨k, x⟩ := p
    rw [dispatchStripFields, List.mapM_cons, ih, dispatchStripValue_eq]
    cases stripAt (placeOf k) x <;> rfl

theorem stripAt_scalar (place : TimerPlace) (s : JsonScalar ν) :
    stripAt place (.scalar s) =
      if place = .element then .error .cannotDeleteFromScalar else .ok (.scalar s) := by
  cases place with
  | elsewhere => rw [stripAt, dispatchStrip, if_neg (by decide)]
  | timers =>
    rw [stripAt, dispatchStripValue, dispatchStrip, if_neg (by decide)]
    exact fun _ h => by cases h
  | element => rfl

theorem stripAt_array (hplace : place ≠ .element) (xs : List (JsonTree ν)) :
    stripAt place (.array xs) = (xs.mapM (stripAt (dueAtRule.onIndex place))).map .array := by
  cases place with
  | elsewhere => rw [stripAt, dispatchStrip, dispatchStripElements_eq]; rfl
  | timers => rw [stripAt, dispatchStripValue, if_pos rfl, dispatchStripTimers_eq]; rfl
  | element => exact absurd rfl hplace

theorem stripAt_array_element (xs : List (JsonTree ν)) :
    stripAt .element (.array xs) =
      ((xs.filter fun x => !isText "due_at" x).mapM (stripAt .elsewhere)).map .array := by
  rw [stripAt, deleteText, ← dispatchStripElements_eq, ← dispatchStrip]
  rfl

/-- The fields of an object that the walk goes on to. -/
def fieldsAt (place : TimerPlace) (fields : List (String × JsonTree ν)) :
    List (String × JsonTree ν) :=
  fields.filter fun p => (dueAtRule.onKey place p.1).isSome

theorem stripAt_object (place : TimerPlace) (fields : List (String × JsonTree ν)) :
    stripAt place (.object fields) =
      ((fieldsAt place fields).mapM fun p => (stripAt (placeOf p.1) p.2).map fun w => (p.1, w)).map
        fun pairs => .object (objectAgg pairs) := by
  have hall : place ≠ .element → fieldsAt place fields = fields := by
    intro hplace
    refine List.filter_eq_self.mpr fun p _ => ?_
    rw [onKey_dueAtRule fun h => hplace h.1]
    rfl
  cases place with
  | elsewhere => rw [stripAt, dispatchStrip, dispatchStripFields_eq, hall (by decide)]
  | timers =>
    rw [stripAt, dispatchStripValue, dispatchStrip, dispatchStripFields_eq, hall (by decide)]
    exact fun _ h => by cases h
  | element =>
    have hfields : fieldsAt .element fields = fields.filter fun p => p.1 != "due_at" := by
      refine List.filter_congr fun p _ => ?_
      by_cases hdue : p.1 = "due_at" <;> simp [dueAtRule, hdue]
    rw [stripAt, deleteText, hfields, ← dispatchStripFields_eq, ← dispatchStrip]
    rfl

/-! ## When nothing is lost -/

/-- An element of an array under a key `timers` is an object, or an array that does not hold the
text. -/
def TimerOk (place : TimerPlace) (v : JsonTree ν) : Prop :=
  place = .element → (∀ s, v ≠ .scalar s) ∧
    ∀ xs, v = .array xs → JsonTree.scalar (.string "due_at") ∉ xs

theorem timersHold_iff : TimersHold v ↔ Everywhere dueAtRule TimerOk .elsewhere v := by
  constructor
  · rintro h path place x hfollow hat rfl
    obtain ⟨hdue, htimer⟩ := (follow_dueAtRule .elsewhere path).2.mp hfollow
    rw [dueAtAhead_elsewhere] at hdue
    rw [timerAhead_elsewhere] at htimer
    have hholds := h path hdue htimer
    rw [hat] at hholds
    exact ⟨fun s hs => hholds.1 s (congrArg some hs), fun xs hxs => hholds.2 xs (congrArg some hxs)⟩
  · intro h path hdue htimer
    have hfollow : dueAtRule.follow .elsewhere path = some .element :=
      (follow_dueAtRule .elsewhere path).2.mpr
        ⟨dueAtAhead_elsewhere.not.mpr hdue, timerAhead_elsewhere.mpr htimer⟩
    refine ⟨fun s hat => ?_, fun xs hat => ?_⟩
    · exact (h path .element _ hfollow hat rfl).1 s rfl
    · exact (h path .element _ hfollow hat rfl).2 xs rfl

theorem isText_iff {text : String} : isText text v = true ↔ v = .scalar (.string text) := by
  unfold isText
  split <;> simp_all

theorem filter_isText_eq_self {text : String} {xs : List (JsonTree ν)} :
    (xs.filter fun x => !isText text x) = xs ↔ JsonTree.scalar (.string text) ∉ xs := by
  rw [List.filter_eq_self]
  constructor
  · intro h hmem
    have hkept := h _ hmem
    rw [isText_iff.mpr rfl] at hkept
    cases hkept
  · intro h x hx
    rw [Bool.not_eq_true', Bool.eq_false_iff, Ne, isText_iff]
    rintro rfl
    exact h hx

theorem pruneFields_dueAtRule (place : TimerPlace) (fields : List (String × JsonTree ν)) :
    pruneFields dueAtRule place fields =
      (fieldsAt place fields).map fun p => (p.1, prune dueAtRule (placeOf p.1) p.2) := by
  induction fields with
  | nil => rfl
  | cons p fields ih =>
    obtain ⟨k, x⟩ := p
    rw [pruneFields, ih]
    unfold fieldsAt
    rw [List.filter_cons]
    by_cases hgoes : place = .element ∧ k = "due_at"
    · have hnone : dueAtRule.onKey place k = none := if_pos hgoes
      simp only [hnone, Option.isSome_none, Bool.false_eq_true, if_false]
    · simp only [onKey_dueAtRule hgoes, Option.isSome_some, if_true]
      rfl

theorem mem_fieldsAt {place' : TimerPlace} {p : String × JsonTree ν} :
    (p ∈ fields ∧ dueAtRule.onKey place p.1 = some place') ↔
      p ∈ fieldsAt place fields ∧ placeOf p.1 = place' := by
  rw [fieldsAt, List.mem_filter, and_assoc]
  refine and_congr_right fun _ => ?_
  by_cases hgoes : place = .element ∧ p.1 = "due_at"
  · have hnone : dueAtRule.onKey place p.1 = none := if_pos hgoes
    simp [hnone]
  · rw [onKey_dueAtRule hgoes, Option.isSome_some, Option.some.injEq]
    exact (and_iff_right rfl).symm

theorem stripAt_of_holds (h : Canonical v) (place : TimerPlace)
    (hholds : Everywhere dueAtRule TimerOk place v) :
    stripAt place v = .ok (prune dueAtRule place v) := by
  induction h generalizing place with
  | scalar s =>
    have hplace : place ≠ .element := fun heq =>
      (everywhere_scalar.mp hholds heq).1 s rfl
    rw [stripAt_scalar, if_neg hplace, prune]
  | @array xs _ ih =>
    obtain ⟨hroot, helements⟩ := everywhere_array.mp hholds
    have hmapM : xs.mapM (stripAt (dueAtRule.onIndex place)) =
        .ok (xs.map (prune dueAtRule (dueAtRule.onIndex place))) := by
      rw [mapM_eq_ok, List.forall₂_map_right_iff, List.forall₂_same]
      exact fun x hx => ih x hx _ (helements x hx)
    rw [prune, pruneElements_eq]
    by_cases hplace : place = .element
    · subst hplace
      have hkept := filter_isText_eq_self.mpr ((hroot rfl).2 xs rfl)
      rw [stripAt_array_element, hkept]
      exact congrArg (Except.map JsonTree.array) hmapM
    · rw [stripAt_array hplace, hmapM]
      rfl
  | @object fields hordered _ ih =>
    obtain ⟨_, hvalues⟩ := (everywhere_object hordered).mp hholds
    have hmapM : ((fieldsAt place fields).mapM fun p =>
        (stripAt (placeOf p.1) p.2).map fun w => (p.1, w)) =
          .ok (pruneFields dueAtRule place fields) := by
      rw [mapM_eq_ok, pruneFields_dueAtRule, List.forall₂_map_right_iff, List.forall₂_same]
      intro p hp
      obtain ⟨hmem, hkey⟩ := mem_fieldsAt.mpr ⟨hp, rfl⟩
      rw [ih p hmem _ (hvalues p hmem _ hkey)]
      rfl
    rw [stripAt_object, hmapM, prune]
    exact congrArg (fun pairs => Except.ok (JsonTree.object pairs))
      (objectAgg_of_ordered (ordered_pruneFields _ _ hordered))

theorem ordered_of_forall₂ {fields fields' : List (String × JsonTree ν)}
    (hkeys : List.Forall₂ (fun p q => q.1 = p.1) fields fields') (h : Ordered fields) :
    Ordered fields' := by
  induction hkeys with
  | nil => exact h
  | @cons p q fields fields' hkey hrest ih =>
    obtain ⟨hfirst, htail⟩ := List.pairwise_cons.mp h
    refine List.pairwise_cons.mpr ⟨fun q' hq' => ?_, ih htail⟩
    obtain ⟨i, hi', rfl⟩ := List.getElem_of_mem hq'
    have hi : i < fields.length := hrest.length_eq ▸ hi'
    have hkey' := hrest.get hi hi'
    rw [List.get_eq_getElem, List.get_eq_getElem] at hkey'
    rw [hkey, hkey']
    exact hfirst _ (List.getElem_mem hi)

theorem holds_of_stripAt {v w : JsonTree ν} (h : Canonical v) (place : TimerPlace)
    (hstrip : stripAt place v = .ok w)
    (hkept : ∀ path, (dueAtRule.follow place path).isSome = true → w.view path = v.view path) :
    Everywhere dueAtRule TimerOk place v := by
  induction h generalizing place w with
  | scalar s =>
    refine everywhere_scalar.mpr fun hplace => ?_
    rw [stripAt_scalar, if_pos hplace] at hstrip
    cases hstrip
  | @array xs _ ih =>
    -- The elements that are stripped: all of them, as the array keeps its length.
    have hall : ∃ ws, w = .array ws ∧
        xs.mapM (stripAt (dueAtRule.onIndex place)) = .ok ws ∧
          (place = .element → JsonTree.scalar (.string "due_at") ∉ xs) := by
      by_cases hplace : place = .element
      · subst hplace
        rw [stripAt_array_element] at hstrip
        obtain ⟨ws, hws, rfl⟩ := map_eq_ok.mp hstrip
        have hlength := hkept [] rfl
        have hsame := (mapM_eq_ok.mp hws).length_eq
        simp only [view_nil, shape, Option.some.injEq, Shape.array.injEq] at hlength
        rw [hlength, List.length_filter_eq_length_iff] at hsame
        have hself := List.filter_eq_self.mpr hsame
        rw [hself] at hws
        exact ⟨ws, rfl, hws, fun _ => filter_isText_eq_self.mp hself⟩
      · rw [stripAt_array hplace] at hstrip
        obtain ⟨ws, hws, rfl⟩ := map_eq_ok.mp hstrip
        exact ⟨ws, rfl, hws, fun heq => absurd heq hplace⟩
    obtain ⟨ws, rfl, hws, htext⟩ := hall
    refine everywhere_array.mpr ⟨fun hplace => ⟨?_, ?_⟩, fun x hx => ?_⟩
    · intro s heq
      cases heq
    · intro ys heq
      cases heq
      exact htext hplace
    · obtain ⟨i, hi, rfl⟩ := List.getElem_of_mem hx
      have heach := mapM_eq_ok.mp hws
      have hi' : i < ws.length := heach.length_eq ▸ hi
      refine ih _ hx _ (heach.get hi hi') fun path hpath => ?_
      have hview := hkept (.index i :: path) hpath
      simpa [view, List.getElem?_eq_getElem hi, List.getElem?_eq_getElem hi'] using hview
  | @object fields hordered _ ih =>
    rw [stripAt_object] at hstrip
    obtain ⟨pairs, hpairs, rfl⟩ := map_eq_ok.mp hstrip
    have heach := mapM_eq_ok.mp hpairs
    have hordered' : Ordered pairs := by
      refine ordered_of_forall₂ (heach.imp fun p q hpq => ?_) (hordered.filter _)
      obtain ⟨y, _, rfl⟩ := map_eq_ok.mp hpq
      rfl
    refine (everywhere_object hordered).mpr ⟨fun _ => ⟨?_, ?_⟩, fun p hp place' hkey => ?_⟩
    · intro s heq
      cases heq
    · intro ys heq
      cases heq
    obtain ⟨hmem, rfl⟩ := mem_fieldsAt.mp ⟨hp, hkey⟩
    obtain ⟨i, hi, hp'⟩ := List.getElem_of_mem hmem
    have hi' : i < pairs.length := heach.length_eq ▸ hi
    obtain ⟨y, hy, hpair⟩ := map_eq_ok.mp (heach.get hi hi')
    rw [List.get_eq_getElem, hp'] at hy hpair
    have hfound : (p.1, y) ∈ pairs := by
      rw [hpair]
      exact List.getElem_mem hi'
    refine ih p hp _ hy fun path hpath => ?_
    have hview := hkept (.key p.1 :: path) (by rwa [PathRule.follow, hkey])
    rw [objectAgg_of_ordered hordered'] at hview
    simpa [view, (lookup_eq_some_iff hordered').mpr hfound,
      (lookup_eq_some_iff hordered).mpr hp] using hview

/-! ## The law of each function -/

section

variable {κ : Type} {r : PathRule κ} {c : κ} {ignored : List PathStep → Prop}
  {strip : JsonTree ν → Except JsonbError (JsonTree ν)} {a b : JsonTree ν}

theorem keepsRest_of_prune (hignored : ∀ path, (r.follow c path).isSome = true ↔ ¬ignored path)
    (ha : Canonical a) (hstrip : strip a = .ok (prune r c a))
    (hagain : strip (prune r c a) = .ok (prune r c (prune r c a))) : KeepsRest strip ignored a := by
  have hvalue : ∀ {v}, strip a = .ok v → v = prune r c a := by
    intro v hv
    rw [hstrip] at hv
    exact (Except.ok.inj hv).symm
  refine ⟨⟨_, hstrip⟩, fun v hv => ?_, fun v hv path hpath => ?_, fun v hv path hpath => ?_⟩
  · rw [hvalue hv, hagain, prune_prune r ha]
  · rw [hvalue hv, view_prune, if_pos ((hignored path).mpr hpath)]
  · rw [hvalue hv, view_prune, if_neg fun h => (hignored path).mp h hpath]

variable (strip) in
theorem same_of_prune (hignored : ∀ path, (r.follow c path).isSome = true ↔ ¬ignored path)
    (ha : Canonical a) (hb : Canonical b) (hstrip : strip a = .ok (prune r c a))
    (hstrip' : strip b = .ok (prune r c b)) : strip a = strip b ↔ AlikeBut ignored a b := by
  rw [hstrip, hstrip', Except.ok.injEq, prune_eq_prune_iff r ha hb]
  exact forall_congr' fun path => imp_congr_left (hignored path)

end

theorem bookingEditStrip_law {a b : JsonTree ν} (ha : Canonical a) (hb : Canonical b) :
    StripLaw (fun v => .ok (bookingEditStrip v)) PreStatePath a b := by
  have hstrip : ∀ {v : JsonTree ν}, Canonical v →
      (Except.ok (bookingEditStrip v) : Except JsonbError _) = .ok (prune preStateRule () v) :=
    fun hv => congrArg Except.ok (bookingEditStrip_eq_prune hv)
  have hkeeps : ∀ {v : JsonTree ν}, Canonical v →
      KeepsRest (fun v => .ok (bookingEditStrip v)) PreStatePath v := fun hv =>
    keepsRest_of_prune follow_preStateRule hv (hstrip hv) (hstrip (canonical_prune _ hv _))
  exact ⟨hkeeps ha, hkeeps hb,
    same_of_prune (fun v => .ok (bookingEditStrip v)) follow_preStateRule ha hb (hstrip ha) (hstrip hb)⟩

theorem follow_elsewhere (path : List PathStep) :
    (dueAtRule.follow .elsewhere path).isSome = true ↔ ¬DueAtPath path := by
  rw [(follow_dueAtRule .elsewhere path).1, dueAtAhead_elsewhere]

theorem dispatchStrip_of_holds (h : Canonical v) (hholds : TimersHold v) :
    dispatchStrip v = .ok (prune dueAtRule .elsewhere v) :=
  stripAt_of_holds h .elsewhere (timersHold_iff.mp hholds)

theorem timersHold_prune (hholds : TimersHold v) : TimersHold (prune dueAtRule .elsewhere v) := by
  intro path hdue htimer
  obtain ⟨place, hplace⟩ := Option.isSome_iff_exists.mp ((follow_elsewhere path).mpr hdue)
  rw [at?_prune, hplace, Option.bind_some]
  refine ⟨fun s hs => ?_, fun xs hxs => ?_⟩
  · obtain ⟨x, hx, heq⟩ := Option.map_eq_some_iff.mp hs
    cases x with
    | scalar s' => exact (hholds path hdue htimer).1 s' hx
    | array xs => cases heq
    | object fields => cases heq
  · obtain ⟨x, hx, heq⟩ := Option.map_eq_some_iff.mp hxs
    cases x with
    | scalar s => cases heq
    | object fields => cases heq
    | array ys =>
      rw [prune, pruneElements_eq] at heq
      cases heq
      intro hmem
      obtain ⟨y, hy, htext⟩ := List.mem_map.mp hmem
      cases y with
      | scalar s =>
        cases htext
        exact (hholds path hdue htimer).2 ys hx hy
      | array zs => cases htext
      | object fields => cases htext

theorem holds_of_keepsRest (h : Canonical v) (hkeeps : KeepsRest dispatchStrip DueAtPath v) :
    TimersHold v := by
  obtain ⟨w, hw⟩ := hkeeps.returns
  refine timersHold_iff.mpr (holds_of_stripAt h .elsewhere hw fun path hpath => ?_)
  exact hkeeps.kept w hw path ((follow_elsewhere path).mp hpath)

/-- Each function ignores exactly its fields, leaves the rest as it is, and returns, exactly when the
timers of the values are objects, or arrays that do not hold the text `due_at`. -/
theorem stripLaws_iff (a b : Jsonb ν) :
    (StripLaw (fun v => .ok (bookingEditStrip v)) PreStatePath a.tree b.tree ∧
      StripLaw dispatchStrip DueAtPath a.tree b.tree) ↔ TimersHold a.tree ∧ TimersHold b.tree := by
  constructor
  · rintro ⟨_, hlaw⟩
    exact ⟨holds_of_keepsRest a.canonical hlaw.left, holds_of_keepsRest b.canonical hlaw.right⟩
  · rintro ⟨ha, hb⟩
    have hkeeps : ∀ {v : JsonTree ν}, Canonical v → TimersHold v →
        KeepsRest dispatchStrip DueAtPath v := fun hv hholds =>
      keepsRest_of_prune follow_elsewhere hv (dispatchStrip_of_holds hv hholds)
        (dispatchStrip_of_holds (canonical_prune _ hv _) (timersHold_prune hholds))
    exact ⟨bookingEditStrip_law a.canonical b.canonical, hkeeps a.canonical ha,
      hkeeps b.canonical hb, same_of_prune dispatchStrip follow_elsewhere a.canonical b.canonical
        (dispatchStrip_of_holds a.canonical ha) (dispatchStrip_of_holds b.canonical hb)⟩

/-! ## A timer that is no object -/

/-- A payload whose only timer is `null`. -/
def nullTimer : Jsonb Nat where
  tree := .object [("timers", .array [.scalar .null])]
  canonical := by
    refine .object (List.pairwise_singleton _ _) fun p hp => ?_
    obtain rfl := List.mem_singleton.mp hp
    refine .array fun x hx => ?_
    obtain rfl := List.mem_singleton.mp hx
    exact .scalar _

/-- No key can be deleted from the timer. -/
theorem nullTimer_raises :
    ¬∀ a b : Jsonb Nat, StripLaw (fun v => .ok (bookingEditStrip v)) PreStatePath a.tree b.tree ∧
      StripLaw dispatchStrip DueAtPath a.tree b.tree := by
  intro hlaw
  obtain ⟨v, hv⟩ := (hlaw nullTimer nullTimer).2.left.returns
  have hraises : dispatchStrip nullTimer.tree = .error .cannotDeleteFromScalar := by
    simp only [nullTimer, dispatchStrip, dispatchStripFields, dispatchStripValue, if_true]
    rw [dispatchStripTimers]
    rfl
  rw [hraises] at hv
  cases hv

end Prequest.Shared
