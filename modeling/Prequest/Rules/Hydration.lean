import Prequest.Rules.Validation

/-!
# Evaluation over fetched answers

What is fetched for a validated predicate is what its evaluation looks up, for
arguments that are texts without the separator of the keys.

* `EvaluationLaw`, `evaluationLaw_iff`: when a validated predicate evaluates.
-/

namespace Prequest.Rules

open Prequest.Lib

/-! ## Tables -/

/-- `after` has the answers of `before`, and answers of the database to the calls that they are
entered for. -/
structure Grown (helpers : Helpers) (before after : Resolved) : Prop where
  keptOrg : ∀ root ids, before.orgDescendants.lookup root = some ids →
    after.orgDescendants.lookup root = some ids
  keptHours : ∀ key b, before.inBusinessHours.lookup key = some b →
    after.inBusinessHours.lookup key = some b
  org : ∀ root ids, after.orgDescendants.lookup root = some ids →
    before.orgDescendants.lookup root = some ids ∨ JsValue.isInherited root = false ∧
      ∃ found, helpers.orgNodeDescendants root = .ok found ∧ ids = found.filter (· ≠ "")
  hours : ∀ key b, after.inBusinessHours.lookup key = some b →
    before.inBusinessHours.lookup key = some b ∨
      helpers.inBusinessHours (splitKey key).1 (splitKey key).2 = .ok b

variable {k : String}

section

variable {helpers : Helpers} {before middle after : Resolved} {c : HelperCall}

theorem Grown.refl : Grown helpers before before where
  keptOrg _ _ h := h
  keptHours _ _ h := h
  org _ _ h := .inl h
  hours _ _ h := .inl h

theorem Grown.trans (h : Grown helpers before middle) (h' : Grown helpers middle after) :
    Grown helpers before after where
  keptOrg root ids hb := h'.keptOrg root ids (h.keptOrg root ids hb)
  keptHours key b hb := h'.keptHours key b (h.keptHours key b hb)
  org root ids ha := (h'.org root ids ha).elim (h.org root ids) .inr
  hours key b ha := (h'.hours key b ha).elim (h.hours key b) .inr

theorem Grown.has (h : Grown helpers before after) (hc : before.has c = true) :
    after.has c = true := by
  cases c with
  | orgNodeDescendants root =>
    obtain ⟨ids, hids⟩ := Option.isSome_iff_exists.mp hc
    exact Option.isSome_iff_exists.mpr ⟨ids, h.keptOrg root ids hids⟩
  | inBusinessHours key =>
    obtain ⟨b, hb⟩ := Option.isSome_iff_exists.mp hc
    exact Option.isSome_iff_exists.mpr ⟨b, h.keptHours key b hb⟩

variable {α : Type} {l : List (String × α)}

theorem lookup_cons_kept {k k' : String} {v w : α} (habsent : (l.lookup k).isSome = false)
    (h : l.lookup k' = some v) : ((k, w) :: l).lookup k' = some v := by
  have hne : k' ≠ k := by
    rintro rfl
    rw [h] at habsent
    cases habsent
  rw [List.lookup_cons, beq_false_of_ne hne]
  exact h

theorem lookup_cons_cases {k k' : String} {v w : α} (h : ((k, w) :: l).lookup k' = some v) :
    k' = k ∧ w = v ∨ l.lookup k' = some v := by
  rw [List.lookup_cons] at h
  by_cases heq : k' = k
  · rw [heq, beq_self_eq_true] at h
    exact .inl ⟨heq, Option.some.inj h⟩
  · rw [beq_false_of_ne heq] at h
    exact .inr h

theorem isSome_lookup_cons {w : α} : (((k, w) :: l).lookup k).isSome = true := by
  rw [List.lookup_cons_self]
  rfl

theorem fetchCall_grown (hown : c.isInherited = false) (hnone : before.has c = false)
    (h : fetchCall helpers before c = .ok after) :
    Grown helpers before after ∧ after.has c = true := by
  cases c with
  | orgNodeDescendants root =>
    cases hcall : helpers.orgNodeDescendants root with
    | error e =>
      rw [fetchCall, hcall] at h
      cases h
    | ok found =>
      rw [fetchCall, hcall] at h
      obtain rfl := Except.ok.inj h
      refine ⟨⟨fun _ _ => lookup_cons_kept hnone, fun _ _ hb => hb, fun root' ids ha => ?_,
        fun _ _ => .inl⟩, isSome_lookup_cons⟩
      rcases lookup_cons_cases ha with ⟨rfl, rfl⟩ | hbefore
      · exact .inr ⟨hown, found, hcall, rfl⟩
      · exact .inl hbefore
  | inBusinessHours key =>
    cases hcall : helpers.inBusinessHours (splitKey key).1 (splitKey key).2 with
    | error e =>
      rw [fetchCall, hcall] at h
      cases h
    | ok b =>
      rw [fetchCall, hcall] at h
      obtain rfl := Except.ok.inj h
      refine ⟨⟨fun _ _ hb => hb, fun _ _ => lookup_cons_kept hnone, fun _ _ => .inl,
        fun key' b' ha => ?_⟩, isSome_lookup_cons⟩
      rcases lookup_cons_cases ha with ⟨rfl, rfl⟩ | hbefore
      · exact .inr hcall
      · exact .inl hbefore

theorem hydrateCall_grown (h : hydrateCall helpers before c = .ok after) :
    Grown helpers before after ∧ (c.isInherited = true ∨ after.has c = true) := by
  unfold hydrateCall at h
  split at h
  · rename_i hskip
    obtain rfl := Except.ok.inj h
    exact ⟨.refl, (Bool.or_eq_true _ _).mp hskip⟩
  · rename_i hskip
    rw [Bool.not_eq_true, Bool.or_eq_false_iff] at hskip
    obtain ⟨hgrown, hhas⟩ := fetchCall_grown hskip.1 hskip.2 h
    exact ⟨hgrown, .inr hhas⟩

theorem foldlM_hydrateCall_grown {calls : List HelperCall}
    (h : calls.foldlM (hydrateCall helpers) before = .ok after) :
    Grown helpers before after ∧ ∀ c ∈ calls, c.isInherited = true ∨ after.has c = true := by
  induction calls generalizing before with
  | nil =>
    obtain rfl := Except.ok.inj h
    exact ⟨.refl, fun _ hc => absurd hc List.not_mem_nil⟩
  | cons c calls ih =>
    rw [List.foldlM_cons] at h
    cases hcall : hydrateCall helpers before c with
    | error e =>
      rw [hcall] at h
      cases h
    | ok middle =>
      rw [hcall] at h
      obtain ⟨hgrown, hc⟩ := hydrateCall_grown hcall
      obtain ⟨hgrown', hcalls⟩ := ih h
      exact ⟨hgrown.trans hgrown',
        List.forall_mem_cons.mpr ⟨hc.imp_right hgrown'.has, hcalls⟩⟩

theorem hydrate_spec {predicates : List JsValue} {ctx ctx' : EvaluationContext}
    (h : hydrateContextHelpers helpers predicates ctx = .ok ctx') :
    ctx' = { ctx with resolved := ctx'.resolved } ∧
      Grown helpers ctx.resolved ctx'.resolved ∧
      ∀ p ∈ predicates, ∀ c ∈ helperCalls ctx p,
        c.isInherited = true ∨ ctx'.resolved.has c = true := by
  unfold hydrateContextHelpers at h
  cases hfold : (hydrateCalls predicates ctx).foldlM (hydrateCall helpers) ctx.resolved with
  | error e =>
    rw [hfold] at h
    cases h
  | ok resolved =>
    rw [hfold] at h
    obtain rfl := Except.ok.inj h
    obtain ⟨hgrown, hcalls⟩ := foldlM_hydrateCall_grown hfold
    exact ⟨rfl, hgrown, fun p hp c hc => hcalls c (mem_hydrateCalls.mpr ⟨p, hp, hc⟩)⟩

end

/-! ## Calls of leaves -/

section

variable {ctx : EvaluationContext} {p q : JsValue} {fields : List (String × JsValue)} {n : Node}

variable {c : HelperCall}

theorem mem_listCalls {xs : List JsValue} (hq : q ∈ xs)
    (hc : c ∈ helperCalls ctx q) : c ∈ listCalls ctx xs := by
  induction xs with
  | nil => exact absurd hq List.not_mem_nil
  | cons x xs ih =>
    unfold listCalls
    rcases List.mem_cons.mp hq with rfl | hrest
    · exact List.mem_append_left _ hc
    · exact List.mem_append_right _ (ih hrest)

variable {v : JsValue}

theorem mem_fieldCalls (hfield : JsValue.field? fields k = some v)
    (hc : c ∈ if k = "and" ∨ k = "or" then elementCalls ctx v
      else if k = "not" then Rules.helperCalls ctx v else []) : c ∈ fieldCalls ctx fields := by
  induction fields with
  | nil => cases hfield
  | cons field fields ih =>
    obtain ⟨k', v'⟩ := field
    unfold fieldCalls
    change List.lookup k ((k', v') :: fields) = some v at hfield
    rw [List.lookup_cons] at hfield
    by_cases heq : k = k'
    · rw [heq, beq_self_eq_true] at hfield
      obtain rfl := Option.some.inj hfield
      exact List.mem_append_left _ (heq ▸ hc)
    · rw [beq_false_of_ne heq] at hfield
      exact List.mem_append_right _ (ih hfield)

theorem field_of_hasKey (h : (JsValue.object fields).hasKey k = true) :
    JsValue.field? fields k = some ((JsValue.object fields).get k) := by
  obtain ⟨v, hv⟩ := Option.isSome_iff_exists.mp h
  show _ = some ((JsValue.field? fields k).getD .undefined)
  rw [hv]
  rfl

theorem IsNode.helperCalls (hnode : IsNode fields n) (hq : q ∈ n.children)
    (hc : c ∈ Rules.helperCalls ctx q) : c ∈ Rules.helperCalls ctx (.object fields) := by
  rw [Rules.helperCalls]
  refine List.mem_append_left _ ?_
  cases hnode with
  | and hand hget =>
    refine mem_fieldCalls (field_of_hasKey hand) ?_
    rw [hget, if_pos (.inl rfl)]
    exact mem_listCalls hq hc
  | or hand hor hget =>
    refine mem_fieldCalls (field_of_hasKey hor) ?_
    rw [hget, if_pos (.inr rfl)]
    exact mem_listCalls hq hc
  | not hand hor hnot =>
    obtain rfl := List.mem_singleton.mp hq
    refine mem_fieldCalls (field_of_hasKey hnot) ?_
    rw [if_neg (by decide), if_pos rfl]
    exact hc
  | fn hand hor hnot hfn hget hknown hargs => exact absurd hq List.not_mem_nil
  | op hand hor hnot hfn hop hget hknown => exact absurd hq List.not_mem_nil

theorem Within.helperCalls (h : Within q p) (hc : c ∈ Rules.helperCalls ctx q) :
    c ∈ Rules.helperCalls ctx p := by
  induction h with
  | here heq hnode => exact heq ▸ hc
  | child hnode hp hwithin ih => exact hnode.helperCalls hp ih

def NoText (v : JsValue) : Prop := ∀ parts s, followPath v parts ≠ .string s

theorem noText_of_not_isObject (hobject : v.isObject = false)
    (hstring : ∀ s, v ≠ .string s) : NoText v := by
  intro parts s h
  cases parts with
  | nil => exact hstring s h
  | cons part parts =>
    rw [followPath, hobject] at h
    cases h

theorem noText_object (hfields : ∀ field ∈ fields, NoText field.2) : NoText (.object fields) := by
  intro parts s h
  cases parts with
  | nil => cases h
  | cons part parts =>
    change followPath ((fields.lookup part).getD .undefined) parts = .string s at h
    cases hfield : fields.lookup part with
    | none =>
      rw [hfield] at h
      exact noText_of_not_isObject rfl (fun _ h => by cases h) parts s h
    | some v =>
      rw [hfield] at h
      obtain ⟨l₁, l₂, heq, _⟩ := List.lookup_eq_some_iff.mp hfield
      have hmem : (part, v) ∈ fields := heq ▸ List.mem_append_right _ List.mem_cons_self
      exact hfields _ hmem parts s h

theorem noText_resolved (r : Resolved) : NoText r.toValue := by
  refine noText_object fun field hfield => ?_
  rcases List.mem_pair.mp hfield with rfl | rfl
  · refine noText_object fun field hfield => ?_
    obtain ⟨p, _, rfl⟩ := List.mem_map.mp hfield
    exact noText_object fun field hfield => absurd hfield List.not_mem_nil
  · refine noText_object fun field hfield => ?_
    obtain ⟨p, _, rfl⟩ := List.mem_map.mp hfield
    exact noText_of_not_isObject rfl fun _ h => by cases h

variable {r : Resolved}

theorem get_resolved_of_ne {part : String} (hne : part ≠ "resolved") :
    ({ ctx with resolved := r } : EvaluationContext).toValue.get part = ctx.toValue.get part := by
  unfold EvaluationContext.toValue JsValue.get JsValue.field?
  simp only [List.lookup_cons, beq_false_of_ne hne]

variable {s : String}

theorem followPath_resolved {parts : List String}
    (h : followPath ({ ctx with resolved := r } : EvaluationContext).toValue parts = .string s) :
    followPath ctx.toValue parts = .string s := by
  cases parts with
  | nil => cases h
  | cons part parts =>
    by_cases heq : part = "resolved"
    · rw [heq] at h
      exact absurd h (noText_resolved r parts s)
    · change followPath
        (({ ctx with resolved := r } : EvaluationContext).toValue.get part) parts = .string s at h
      rw [get_resolved_of_ne heq] at h
      exact h

theorem resolveRef_string
    (h : resolveRef { ctx with resolved := r } v = .string s) : resolveRef ctx v = .string s := by
  cases v with
  | string path =>
    unfold resolveRef at h ⊢
    dsimp only at h ⊢
    split at h
    · rename_i hstarts
      rw [if_pos hstarts]
      exact followPath_resolved h
    · rename_i hstarts
      rw [if_neg hstarts]
      exact h
  | _ => exact h

theorem getD_resolveRef (args : List JsValue) (i : Nat) :
    (args.map (resolveRef ctx)).getD i .undefined = resolveRef ctx (args.getD i .undefined) := by
  rw [List.getD_eq_getElem?_getD, List.getElem?_map, List.getD_eq_getElem?_getD]
  cases args[i]? <;> rfl

variable {args : List JsValue}

theorem getD_string {i : Nat}
    (h : (args.map (resolveRef { ctx with resolved := r })).getD i .undefined = .string s) :
    (args.map (resolveRef ctx)).getD i .undefined = .string s := by
  rw [getD_resolveRef] at h ⊢
  exact resolveRef_string h

variable {leaf : JsValue} {fn : String}

theorem callOf_eq_some (h : callOf leaf = some (fn, args)) :
    ∃ fields, leaf = .object fields ∧ leaf.get "fn" = .string fn ∧
      leaf.get "args" = .array args := by
  unfold callOf at h
  split at h
  · rename_i hfn
    split at h
    · rename_i hget hargs
      obtain ⟨rfl, rfl⟩ := Prod.mk.inj (Option.some.inj h)
      cases leaf with
      | object fields => exact ⟨fields, rfl, hget, hargs⟩
      | _ => cases hfn
    · cases h
  · cases h

theorem fnLookup_eq_org {root : JsValue} (h : fnLookup ctx fn args = some (.orgDescendants root)) :
    fn = "in_org_descendants" ∧ (args.map (resolveRef ctx)).getD 1 .undefined = root := by
  unfold fnLookup at h
  dsimp only at h
  split at h
  · cases h
  · split at h
    · cases h
    · split at h
      · rename_i hfn
        exact ⟨hfn, Lookup.orgDescendants.inj (Option.some.inj h)⟩
      · cases h

theorem fnLookup_eq_hours {at' calendarId : JsValue}
    (h : fnLookup ctx fn args = some (.inBusinessHours at' calendarId)) :
    fn = "in_business_hours" ∧ (args.map (resolveRef ctx)).getD 0 .undefined = at' ∧
      (args.map (resolveRef ctx)).getD 1 .undefined = calendarId := by
  unfold fnLookup at h
  dsimp only at h
  split at h
  · cases h
  · split at h
    · rename_i hfn
      exact ⟨hfn, Lookup.inBusinessHours.inj (Option.some.inj h)⟩
    · split at h
      · cases h
      · cases h

theorem mem_helperCalls_org {root : String}
    (h : leafLookup { ctx with resolved := r } leaf = some (.orgDescendants (.string root))) :
    .orgNodeDescendants root ∈ helperCalls ctx leaf := by
  obtain ⟨⟨fn, args⟩, hcall, hlookup⟩ := Option.bind_eq_some_iff.mp h
  obtain ⟨fields, rfl, hget, hargs⟩ := callOf_eq_some hcall
  obtain ⟨hfn, hroot⟩ := fnLookup_eq_org hlookup
  have hroot' := getD_string hroot
  rw [helperCalls]
  refine List.mem_append_right _ ?_
  unfold ownCall
  rw [hget, hargs]
  dsimp only at hfn ⊢
  rw [if_pos hfn, hroot']
  exact List.mem_singleton_self _

theorem mem_helperCalls_hours {at' calendarId : String}
    (h : leafLookup { ctx with resolved := r } leaf =
      some (.inBusinessHours (.string at') (.string calendarId))) :
    .inBusinessHours (at' ++ "|" ++ calendarId) ∈ helperCalls ctx leaf := by
  obtain ⟨⟨fn, args⟩, hcall, hlookup⟩ := Option.bind_eq_some_iff.mp h
  obtain ⟨fields, rfl, hget, hargs⟩ := callOf_eq_some hcall
  obtain ⟨hfn, hat, hcalendar⟩ := fnLookup_eq_hours hlookup
  have hat' := getD_string hat
  have hcalendar' := getD_string hcalendar
  rw [helperCalls]
  refine List.mem_append_right _ ?_
  unfold ownCall
  rw [hget, hargs]
  dsimp only at hfn ⊢
  rw [hfn, if_neg (by decide), if_pos rfl, hat', hcalendar']
  exact List.mem_singleton_self _

end

/-! ## Lookups that find their answer -/

/-- The lookup finds an entry, which was there before or which the database was asked for with
exactly these arguments. -/
def Lookup.Hydrated (helpers : Helpers) (before after : Resolved) : Lookup → Prop
  | .orgDescendants root => ∃ r ids, root = .string r ∧
      after.orgDescendants.lookup r = some ids ∧
      (before.orgDescendants.lookup r = some ids ∨
        ∃ found, helpers.orgNodeDescendants r = .ok found ∧ ids = found.filter (· ≠ ""))
  | .inBusinessHours at' calendarId => ∃ a c b, at' = .string a ∧ calendarId = .string c ∧
      after.inBusinessHours.lookup (a ++ "|" ++ c) = some b ∧
      (before.inBusinessHours.lookup (a ++ "|" ++ c) = some b ∨
        splitKey (a ++ "|" ++ c) = (a, c) ∧ helpers.inBusinessHours a c = .ok b)

/-- The lookup is by texts that can be fetched for: no inherited property is hit, and the key of two
texts can be cut back into them. An entry that was there before need not be fetched. -/
def Lookup.Fetchable (before : Resolved) : Lookup → Prop
  | .orgDescendants root => ∃ r, root = .string r ∧
      (JsValue.isInherited r = true → (before.orgDescendants.lookup r).isSome = true)
  | .inBusinessHours at' calendarId => ∃ a c, at' = .string a ∧ calendarId = .string c ∧
      ((before.inBusinessHours.lookup (a ++ "|" ++ c)).isSome = true ∨
        '|' ∉ a.toList ∧ '|' ∉ c.toList)

theorem splitKey_eq_iff (a c : String) :
    splitKey (a ++ "|" ++ c) = (a, c) ↔ '|' ∉ a.toList ∧ '|' ∉ c.toList := by
  have happend : segments '|' (a ++ "|" ++ c) = segments '|' a ++ segments '|' c :=
    segments_append '|' a c
  constructor
  · intro h
    unfold splitKey at h
    split at h
    · rename_i at' cal rest hsegments
      obtain ⟨rfl, rfl⟩ := Prod.mk.inj h
      have hmem : ∀ s ∈ at' :: cal :: rest, '|' ∉ s.toList := fun s hs =>
        notMem_of_mem_segments (hsegments ▸ hs)
      exact ⟨hmem _ List.mem_cons_self, hmem _ (List.mem_cons_of_mem _ List.mem_cons_self)⟩
    · rename_i hshort
      obtain ⟨x, xs, hx⟩ := List.exists_cons_of_ne_nil (segments_ne_nil '|' a)
      obtain ⟨y, ys, hy⟩ := List.exists_cons_of_ne_nil (segments_ne_nil '|' c)
      rw [happend, hx, hy] at hshort
      cases xs with
      | nil => exact absurd rfl (hshort x y ys)
      | cons x' xs => exact absurd rfl (hshort x x' (xs ++ y :: ys))
  · rintro ⟨ha, hc⟩
    unfold splitKey
    rw [happend, segments_of_notMem ha, segments_of_notMem hc]
    rfl

/-- A conversion that a leaf makes is of a value with a text, and its lookup can be fetched for. -/
structure LeafSound (now : Int) (before : Resolved) (ctx : EvaluationContext) (leaf : JsValue) :
    Prop where
  converts : ∀ v ∈ leafConversions now ctx leaf, v.convertible = true
  fetchable : ∀ l ∈ leafLookup ctx leaf, l.Fetchable before

section

variable {now : Int} {helpers : Helpers} {ctx ctx' : EvaluationContext} {p leaf : JsValue}

theorem hydrated_iff (hhydrate : hydrateContextHelpers helpers [p] ctx = .ok ctx')
    (hwithin : Within leaf p) {l : Lookup} (hl : leafLookup ctx' leaf = some l) :
    l.ownOrAbsent ctx' ∧ l.Hydrated helpers ctx.resolved ctx'.resolved ↔
      l.Fetchable ctx.resolved := by
  obtain ⟨hctx, hgrown, hcalls⟩ := hydrate_spec hhydrate
  have hsettled : ∀ c ∈ helperCalls ctx leaf, c.isInherited = true ∨ ctx'.resolved.has c = true :=
    fun c hc => hcalls p (List.mem_singleton_self p) c (hwithin.helperCalls hc)
  rw [hctx] at hl
  cases l with
  | orgDescendants root =>
    constructor
    · rintro ⟨_, r, ids, rfl, hlookup, _⟩
      refine ⟨r, rfl, fun hinherited => ?_⟩
      rcases hgrown.org r ids hlookup with hbefore | ⟨hown, _⟩
      · rw [hbefore]
        rfl
      · rw [hinherited] at hown
        cases hown
    · rintro ⟨r, rfl, hinherited⟩
      have hhas : (ctx'.resolved.orgDescendants.lookup r).isSome = true := by
        rcases hsettled _ (mem_helperCalls_org hl) with hin | hhas
        · obtain ⟨ids, hids⟩ := Option.isSome_iff_exists.mp (hinherited hin)
          rw [hgrown.keptOrg r ids hids]
          rfl
        · exact hhas
      obtain ⟨ids, hids⟩ := Option.isSome_iff_exists.mp hhas
      exact ⟨fun _ => hhas, r, ids, rfl, hids, (hgrown.org r ids hids).imp_right And.right⟩
  | inBusinessHours at' calendarId =>
    constructor
    · rintro ⟨_, a, c, b, rfl, rfl, hlookup, hbefore | ⟨hsplit, _⟩⟩
      · exact ⟨a, c, rfl, rfl, .inl (Option.isSome_iff_exists.mpr ⟨b, hbefore⟩)⟩
      · exact ⟨a, c, rfl, rfl, .inr ((splitKey_eq_iff a c).mp hsplit)⟩
    · rintro ⟨a, c, rfl, rfl, hfetch⟩
      have hhas := (hsettled _ (mem_helperCalls_hours hl)).resolve_left Bool.false_ne_true
      obtain ⟨b, hb⟩ := Option.isSome_iff_exists.mp hhas
      refine ⟨trivial, a, c, b, rfl, rfl, hb, ?_⟩
      rcases hfetch with hbefore | hfree
      · obtain ⟨b', hb'⟩ := Option.isSome_iff_exists.mp hbefore
        have hsame := hgrown.keptHours _ b' hb'
        rw [hb] at hsame
        exact .inl (Option.some.inj hsame ▸ hb')
      · have hsplit := (splitKey_eq_iff a c).mpr hfree
        rcases hgrown.hours _ b hb with hbefore | hasked
        · exact .inl hbefore
        · rw [hsplit] at hasked
          exact .inr ⟨hsplit, hasked⟩

/-! ## The law -/

/-- The evaluation of what is within the predicate is made of those of its parts. -/
def Homomorphic (now : Int) (p : JsValue) : Prop :=
  ∀ ctx q fields n, Within q p → q = .object fields → IsNode fields n →
    match n with
    | .and ps => evaluate now ctx q = ps.allM (evaluate now ctx)
    | .or ps => evaluate now ctx q = ps.anyM (evaluate now ctx)
    | .not q' => evaluate now ctx q = (evaluate now ctx q').map fun b => !b
    | .fn .. | .op .. => True

/-- The predicate evaluates, and every lookup of the evaluation finds its answer. -/
structure EvaluationLaw (now : Int) (helpers : Helpers) (ctx ctx' : EvaluationContext)
    (p : JsValue) : Prop where
  returns : ∃ b, evaluate now ctx' p = .ok b
  hydrated : ∀ l ∈ lookups now ctx' p, l.Hydrated helpers ctx.resolved ctx'.resolved
  homomorphic : Homomorphic now p

theorem homomorphic (h : validate p = .ok ()) : Homomorphic now p := by
  intro ctx q fields n hwithin heq hnode
  obtain ⟨levels, hle, hvalid⟩ := hwithin.validateAt h
  obtain ⟨below, fields', n', rfl, heq', hnode', hchildren⟩ := isNode_of_validateAt hvalid
  rw [heq] at heq'
  cases heq'
  obtain rfl := hnode.unique hnode'
  have hchild : ∀ q' ∈ n.children, evaluateAt now ctx 10 q' = evaluateAt now ctx 11 q' := by
    intro q' hq'
    rw [evaluateAt_of_le now ctx (hchildren q' hq') (show below ≤ 10 by omega),
      evaluateAt_of_le now ctx (hchildren q' hq') (show below ≤ 11 by omega)]
  have hevaluate : evaluate now ctx q = n.evaluateAt now ctx 11 := by
    rw [heq]
    exact (hnode.evaluateAt now ctx 10).trans (Node.evaluateAt_congr hchild)
  cases n with
  | and ps => exact hevaluate
  | or ps => exact hevaluate
  | not q' => exact hevaluate
  | fn name args => trivial
  | op name left right => trivial

/-- A validated predicate evaluates, over the answers that are fetched for it, when every leaf that
the evaluation comes to converts values with a text and looks up what can be fetched for. -/
theorem evaluationLaw_iff (hvalid : validate p = .ok ())
    (hhydrate : hydrateContextHelpers helpers [p] ctx = .ok ctx') :
    EvaluationLaw now helpers ctx ctx' p ↔
      ∀ leaf ∈ visited now ctx' p, LeafSound now ctx.resolved ctx' leaf := by
  have hreturns := @evaluateAt_ok_iff now ctx' 11 p hvalid
  constructor
  · intro hlaw leaf hleaf
    obtain ⟨hwithin, hisLeaf⟩ := within_of_visitedAt hvalid hleaf
    obtain ⟨hconverts, hown⟩ := (evalLeaf_ok_iff hisLeaf).mp (hreturns.mp hlaw.returns leaf hleaf)
    refine ⟨hconverts, fun l hl => (hydrated_iff hhydrate hwithin hl).mp ⟨hown l hl, ?_⟩⟩
    exact hlaw.hydrated l (List.mem_filterMap.mpr ⟨leaf, hleaf, hl⟩)
  · intro hsound
    refine ⟨hreturns.mpr fun leaf hleaf => ?_, fun l hl => ?_, homomorphic hvalid⟩
    · obtain ⟨hwithin, hisLeaf⟩ := within_of_visitedAt hvalid hleaf
      refine (evalLeaf_ok_iff hisLeaf).mpr ⟨(hsound leaf hleaf).converts, fun l hl => ?_⟩
      exact ((hydrated_iff hhydrate hwithin hl).mpr ((hsound leaf hleaf).fetchable l hl)).1
    · obtain ⟨leaf, hleaf, hlookup⟩ := List.mem_filterMap.mp hl
      obtain ⟨hwithin, _⟩ := within_of_visitedAt hvalid hleaf
      exact ((hydrated_iff hhydrate hwithin hlookup).mpr
        ((hsound leaf hleaf).fetchable l hlookup)).2

/-! ## A predicate that throws -/

def orgContext : EvaluationContext where
  resolutionBasisAt := none
  requester := { id := "anna", orgNodeId := some "n1" }
  space := ⟨"s1", none, none, none, none, none, ["s1"]⟩
  booking := ⟨"2026-03-02T09:00:00Z", "2026-03-02T10:00:00Z", 60, 120, none⟩
  permissions := []
  resolutionBasisMs := 0

/-- Every org node has itself and `n1` below it. -/
def orgHelpers : Helpers where
  orgNodeDescendants root := .ok [root, "n1"]
  inBusinessHours _ _ := .ok false

/-- Whether `n1` is below the root. -/
def inOrg (root : String) : JsValue :=
  .object
    [("fn", .string "in_org_descendants"),
      ("args", .array [.string "n1", .string root])]

theorem eq_ok_of_toOption {ε α : Type} {x : Except ε α} {a : α} (h : x.toOption = some a) :
    x = .ok a := by
  cases x with
  | error e => cases h
  | ok b => rw [Option.some.inj h]

theorem evaluationLaw_iff_inOrg :
    EvaluationLaw 0 orgHelpers orgContext
        { orgContext with resolved := ⟨[("n0", ["n0", "n1"])], []⟩ } (inOrg "n0") ↔
      ∀ leaf ∈ visited 0 { orgContext with resolved := ⟨[("n0", ["n0", "n1"])], []⟩ } (inOrg "n0"),
        LeafSound 0 orgContext.resolved
          { orgContext with resolved := ⟨[("n0", ["n0", "n1"])], []⟩ } leaf :=
  evaluationLaw_iff (by rfl) (eq_ok_of_toOption (by decide +kernel))

/-- The table of org nodes has a `constructor` of its own accord: no answer is fetched for it, and
it has no `has`. -/
theorem inheritedRoot_throws :
    validate (inOrg "constructor") = .ok () ∧
      hydrateContextHelpers orgHelpers [inOrg "constructor"] orgContext = .ok orgContext ∧
      ¬EvaluationLaw 0 orgHelpers orgContext orgContext (inOrg "constructor") := by
  refine ⟨by rfl, eq_ok_of_toOption (by decide +kernel), fun h => ?_⟩
  obtain ⟨b, hb⟩ := h.returns
  have hthrows : (evaluate 0 orgContext (inOrg "constructor")).toOption = none := by
    decide +kernel
  rw [hb] at hthrows
  cases hthrows

end

end Prequest.Rules
