import Prequest.Rules.Resolver

/-!
# The two paths of the rule resolver

`resolve` looks for subtree rules on a space and the fifteen spaces above it:
its walk asks for 16 rows, the space itself among them. `resolveBulk` starts its
16 rows at the parent, so it also takes the rules of the sixteenth ancestor. Both
read one page of rules, which is longer for a list of all rules than for those of
one space, and the bulk path one page of spaces for each layer. Below that depth,
and with lists that fit in a page, the two paths see the same rules in the same order.

* `bulkAgrees_iff`: the paths agree exactly under the condition.
-/

namespace Prequest.Rules

open Prequest.Lib Prequest.Shared Prequest.Booking

/-! ## The order of the rules -/

instance : IsTrans RuleRow beforeRule where
  trans a b c hab hbc := by
    unfold beforeRule at *
    rcases hab with hab | ⟨hab, hid⟩
    · rcases hbc with hbc | ⟨hbc, _⟩
      · exact Or.inl (hbc.trans hab)
      · exact Or.inl (hbc ▸ hab)
    · rcases hbc with hbc | ⟨hbc, hid'⟩
      · exact Or.inl (hab ▸ hbc)
      · exact Or.inr ⟨hab.trans hbc, hid.trans hid'⟩

instance : Std.Total beforeRule where
  total a b := by
    unfold beforeRule
    rcases lt_trichotomy a.priority b.priority with h | h | h
    · exact Or.inr (Or.inl h)
    · rcases le_total a.id b.id with hid | hid
      · exact Or.inl (Or.inr ⟨h, hid⟩)
      · exact Or.inr (Or.inr ⟨h.symm, hid⟩)
    · exact Or.inl (Or.inl h)

theorem id_eq_of_beforeRule {a b : RuleRow} (hab : beforeRule a b) (hba : beforeRule b a) :
    a.id = b.id := by
  unfold beforeRule at hab hba
  rcases hab with hab | ⟨_, hab⟩
  · rcases hba with hba | ⟨hba, _⟩
    · omega
    · omega
  · rcases hba with hba | ⟨_, hba⟩
    · omega
    · exact le_antisymm hab hba

instance : IsTrans RuleRow byId where
  trans _ _ _ hab hbc := le_trans (α := String) hab hbc

instance : Std.Total byId where
  total a b := le_total a.id b.id

section

variable {rules : List RuleRow} {space : SpaceWithChain} {m : MatchedRule}

def sortedBucket (rules : List RuleRow) (space : SpaceWithChain) (specificity : Nat) :
    List MatchedRule :=
  ((rules.filter fun r => specificityFor space r == some specificity).insertionSort
    beforeRule).map fun r => { rule := r, specificity := specificity }

theorem orderedRules_eq : orderedRules rules space = [1, 2, 3, 4].flatMap (sortedBucket rules space) := by
  have hbucket : ∀ specificities : List Nat,
      (specificities.filterMap fun specificity =>
        let bucket := rules.filter fun r => specificityFor space r == some specificity
        if bucket.isEmpty then none else some (specificity, bucket)).flatMap (fun bucket =>
          (bucket.2.insertionSort beforeRule).map fun r =>
            { rule := r, specificity := bucket.1 : MatchedRule }) =
        specificities.flatMap (sortedBucket rules space) := by
    intro specificities
    induction specificities with
    | nil => rfl
    | cons specificity specificities ih =>
      rw [List.flatMap_cons, ← ih, List.filterMap_cons]
      by_cases hempty : (rules.filter fun r => specificityFor space r == some specificity) = []
      · simp [hempty, sortedBucket]
      · simp [hempty, sortedBucket]
  exact hbucket [1, 2, 3, 4]

theorem mem_sortedBucket {specificity : Nat} :
    m ∈ sortedBucket rules space specificity ↔
      m.rule ∈ rules ∧ specificityFor space m.rule = some specificity ∧
        m.specificity = specificity := by
  simp only [sortedBucket, List.mem_map, List.mem_insertionSort, List.mem_filter, beq_iff_eq]
  constructor
  · rintro ⟨r, ⟨hr, hs⟩, rfl⟩
    exact ⟨hr, hs, rfl⟩
  · rintro ⟨hr, hs, rfl⟩
    exact ⟨m.rule, ⟨hr, hs⟩, rfl⟩

theorem specificityFor_of_mem (h : m ∈ orderedRules rules space) :
    specificityFor space m.rule = some m.specificity := by
  rw [orderedRules_eq] at h
  obtain ⟨specificity, _, hm⟩ := List.mem_flatMap.mp h
  obtain ⟨_, hs, rfl⟩ := mem_sortedBucket.mp hm
  exact hs

theorem mem_orderedRules :
    m ∈ orderedRules rules space ↔
      m.rule ∈ rules ∧ specificityFor space m.rule = some m.specificity := by
  rw [orderedRules_eq, List.mem_flatMap]
  constructor
  · intro h
    obtain ⟨specificity, _, hm⟩ := h
    obtain ⟨hrule, hs, heq⟩ := mem_sortedBucket.mp hm
    exact ⟨hrule, heq ▸ hs⟩
  · intro h
    refine ⟨m.specificity, ?_, mem_sortedBucket.mpr ⟨h.1, h.2, rfl⟩⟩
    have hs := h.2
    unfold specificityFor at hs
    grind

/-- Of two rules with ids of their own, the one that is evaluated first. -/
def comesFirst (a b : MatchedRule) : Prop :=
  a.specificity < b.specificity ∨
    a.specificity = b.specificity ∧ beforeRule a.rule b.rule ∧ a.rule.id ≠ b.rule.id

instance : Std.Irrefl comesFirst where
  irrefl m h := by
    rcases h with h | ⟨_, _, hid⟩
    · omega
    · exact hid rfl

instance : Std.Antisymm comesFirst where
  antisymm a b hab hba := by
    rcases hab with hab | ⟨heq, hab, hid⟩
    · rcases hba with hba | ⟨hba, _⟩
      · omega
      · omega
    · rcases hba with hba | ⟨_, hba, _⟩
      · omega
      · exact absurd (id_eq_of_beforeRule hab hba) hid

theorem pairwise_comesFirst (hid : (rules.map RuleRow.id).Nodup) :
    (orderedRules rules space).Pairwise comesFirst := by
  rw [orderedRules_eq, List.pairwise_flatMap]
  refine ⟨fun specificity _ => ?_, ?_⟩
  · have hdistinct : (((rules.filter fun r => specificityFor space r == some specificity).insertionSort
        beforeRule).map RuleRow.id).Nodup :=
      ((List.perm_insertionSort beforeRule _).map RuleRow.id).nodup_iff.mpr
        (hid.sublist (List.filter_sublist.map RuleRow.id))
    unfold sortedBucket
    rw [List.pairwise_map]
    exact ((List.pairwise_insertionSort beforeRule _).and (List.pairwise_map.mp hdistinct)).imp
      fun h => Or.inr ⟨rfl, h⟩
  · have hbuckets : ([1, 2, 3, 4] : List Nat).Pairwise (· < ·) := by decide
    refine hbuckets.imp fun hlt a ha b hb => Or.inl ?_
    rw [(mem_sortedBucket.mp ha).2.2, (mem_sortedBucket.mp hb).2.2]
    exact hlt

theorem orderedRules_filter (p : RuleRow → Bool) :
    orderedRules (rules.filter p) space = (orderedRules rules space).filter fun m => p m.rule := by
  rw [orderedRules_eq, orderedRules_eq, List.filter_flatMap]
  congr 1
  funext specificity
  rw [sortedBucket, sortedBucket, List.filter_map, List.filter_filter]
  have hcomm : (rules.filter fun r => (specificityFor space r == some specificity) && p r) =
      (rules.filter fun r => specificityFor space r == some specificity).filter p := by
    rw [List.filter_filter]
    exact List.filter_congr fun r _ => Bool.and_comm _ _
  rw [hcomm, ← filter_insertionSort]
  rfl

def bucket (rules : List RuleRow) (space : SpaceWithChain) (specificity : Nat) : List RuleRow :=
  rules.filter fun r => specificityFor space r == some specificity

theorem filterRulesForSpace_eq :
    filterRulesForSpace rules space = [1, 2, 3, 4].flatMap (bucket rules space) := by
  have hbucket : ∀ specificities : List Nat,
      (specificities.filterMap fun specificity =>
        if (bucket rules space specificity).isEmpty then none
        else some (specificity, bucket rules space specificity)).flatMap Prod.snd =
        specificities.flatMap (bucket rules space) := by
    intro specificities
    induction specificities with
    | nil => rfl
    | cons specificity specificities ih =>
      rw [List.flatMap_cons, ← ih, List.filterMap_cons]
      by_cases hempty : bucket rules space specificity = []
      · simp [hempty]
      · simp [hempty]
  exact hbucket [1, 2, 3, 4]

theorem bucket_bucket (specificity other : Nat) :
    bucket (bucket rules space other) space specificity =
      if other = specificity then bucket rules space specificity else [] := by
  unfold bucket
  rw [List.filter_filter]
  split
  · rename_i h
    exact List.filter_congr fun r _ => by rw [h, Bool.and_self]
  · rename_i h
    refine List.filter_eq_nil_iff.mpr fun r _ hboth => ?_
    obtain ⟨h1, h2⟩ := (Bool.and_eq_true _ _).mp hboth
    exact h (Option.some.inj ((beq_iff_eq.mp h2).symm.trans (beq_iff_eq.mp h1)))

theorem orderedRules_filterRulesForSpace :
    orderedRules (filterRulesForSpace rules space) space = orderedRules rules space := by
  rw [orderedRules_eq, orderedRules_eq]
  refine List.flatMap_congr fun specificity hmem => ?_
  have hbucket : bucket (filterRulesForSpace rules space) space specificity =
      bucket rules space specificity := by
    have hsplit : bucket (filterRulesForSpace rules space) space specificity =
        [1, 2, 3, 4].flatMap fun other => bucket (bucket rules space other) space specificity := by
      rw [filterRulesForSpace_eq, bucket, List.filter_flatMap]
      rfl
    rw [hsplit]
    simp only [bucket_bucket]
    rcases List.mem_cons.mp hmem with rfl | hmem
    · simp
    rcases List.mem_cons.mp hmem with rfl | hmem
    · simp
    rcases List.mem_cons.mp hmem with rfl | hmem
    · simp
    rcases List.mem_cons.mp hmem with rfl | hmem
    · simp
    · exact absurd hmem List.not_mem_nil
  show (List.insertionSort beforeRule (bucket _ _ _)).map _ = _
  rw [hbucket]
  rfl

end

/-! ## The spaces -/

/-- A space with the chain that the bulk path gives it. -/
def withChain (db : RulesDb) (row : SpaceRow) : SpaceWithChain where
  id := row.id
  type := row.type
  parentId := row.parentId
  capacity := row.capacity
  minAttendees := row.minAttendees
  defaultCalendarId := row.defaultCalendarId
  ancestorIds := (walk db.spaces.get? SpaceRow.parentId 17 (some row.id)).map SpaceRow.id

variable {db : RulesDb} {spaceId : String} {spaceIds : List String}

/-- The spaces of a list that fits in one page all come with their whole chains. -/
theorem loadSpacesWithAncestors_eq (hfits : spaceIds.length ≤ maxRows) (h : spaceId ∈ spaceIds) :
    loadSpacesWithAncestors db spaceIds spaceId = (db.spaces.get? spaceId).map (withChain db) := by
  have hwalk := walk_fetchAll SpaceRow.parentId db.spaces hfits h
  have hone := hwalk 1
  have hseventeen := hwalk 17
  simp only [walk] at hone
  unfold loadSpacesWithAncestors
  simp only [List.contains_iff_mem, h, if_true]
  cases hrow : db.spaces.get? spaceId with
  | none =>
    cases hseed : lookupIn (fetchAll SpaceRow.parentId maxRows db.spaces spaceIds) spaceId with
    | none => rfl
    | some seed => simp [hrow, hseed] at hone
  | some row =>
    cases hseed : lookupIn (fetchAll SpaceRow.parentId maxRows db.spaces spaceIds) spaceId with
    | none => simp [hrow, hseed] at hone
    | some seed =>
      simp only [hrow, hseed, List.cons.injEq, and_true] at hone
      subst hone
      have hid : seed.id = spaceId := (Table.get?_eq_some.mp hrow).2
      rw [walk, walk, hrow, hseed] at hseventeen
      simp only [List.cons.injEq, true_and] at hseventeen
      simp only [Option.map_some, withChain, Option.some.injEq, SpaceWithChain.mk.injEq,
        true_and]
      rw [hseventeen, hid, walk, hrow]
      simp [hid]

variable {row : SpaceRow} {outcome : ResolveOutcome}

theorem take_ancestorIds (row : SpaceRow) :
    (withChain db row).ancestorIds.take 16 = loadAncestorChain db row.id := by
  show ((walk db.spaces.get? SpaceRow.parentId (16 + 1) (some row.id)).map SpaceRow.id).take 16 = _
  rw [← List.map_take, walk_take]
  rfl

theorem self_mem_loadAncestorChain (hrow : db.spaces.get? row.id = some row) :
    row.id ∈ loadAncestorChain db row.id := by
  unfold loadAncestorChain
  rw [walk, hrow]
  exact List.mem_map.mpr ⟨row, List.mem_cons_self, rfl⟩

/-! ## The rules that only the bulk path sees -/

def aimedBeyond (space : SpaceWithChain) (r : RuleRow) : Bool :=
  r.targetScope == .spaceSubtree && r.targetId.any fun target =>
    (space.ancestorIds.drop 16).contains target && !(space.ancestorIds.take 16).contains target

theorem isCandidate_eq (hrow : db.spaces.get? row.id = some row) {r : RuleRow} {specificity : Nat}
    (h : specificityFor (withChain db row) r = some specificity) :
    isCandidate (loadAncestorChain db row.id ++ [row.id]) row.id r =
      !aimedBeyond (withChain db row) r := by
  have hself := self_mem_loadAncestorChain hrow
  unfold specificityFor at h
  unfold isCandidate aimedBeyond
  rw [take_ancestorIds]
  cases hscope : r.targetScope with
  | tenant => rfl
  | roomType => rfl
  | room =>
    rw [hscope] at h
    by_cases hroom : r.targetId = some row.id
    · simp [hroom]
    · simp [withChain, hroom] at h
  | spaceSubtree =>
    rw [hscope] at h
    cases htarget : r.targetId with
    | none => simp [htarget] at h
    | some target =>
      have hmem : target ∈ (withChain db row).ancestorIds := by
        by_contra hnot
        simp [htarget, hnot] at h
      rw [← List.take_append_drop 16 (withChain db row).ancestorIds, take_ancestorIds] at hmem
      by_cases hwithin : target ∈ loadAncestorChain db row.id
      · simp [hwithin]
      · have hbeyond := (List.mem_append.mp hmem).resolve_left hwithin
        have hne : target ≠ row.id := fun heq => hwithin (heq ▸ hself)
        simp [hwithin, hbeyond, hne]

/-- When all active rules fit in one page, `resolve` sees the rules of the space that are not aimed
beyond its walk. -/
theorem orderedRules_candidates (hrow : db.spaces.get? row.id = some row)
    (hfits : (activeRules db).length ≤ maxRows) :
    orderedRules (fetchCandidateRules db row.id) (withChain db row) =
      (orderedRules (fetchAllRules db) (withChain db row)).filter fun m =>
        !aimedBeyond (withChain db row) m.rule := by
  have hfetch : fetchCandidateRules db row.id = (activeRules db).filter
      (isCandidate (loadAncestorChain db row.id ++ [row.id]) row.id) := by
    have hsorted : (activeRules db).filter
        (isCandidate (loadAncestorChain db row.id ++ [row.id]) row.id) =
        (db.rules.rows.filter fun r => r.active &&
          isCandidate (loadAncestorChain db row.id ++ [row.id]) row.id r).insertionSort byId := by
      rw [activeRules, filter_insertionSort, List.filter_filter]
      exact congrArg (List.insertionSort byId) (List.filter_congr fun r _ => Bool.and_comm _ _)
    rw [fetchCandidateRules, ← hsorted]
    exact page_eq_self_iff.mpr (List.filter_sublist.length_le.trans hfits)
  rw [hfetch, fetchAllRules, page_eq_self_iff.mpr hfits, orderedRules_filter]
  exact List.filter_congr fun m hm => isCandidate_eq hrow (specificityFor_of_mem hm)

/-! ## One space -/

def spaceContext (db : RulesDb) (now : Int) (request : BulkRequest) (requester : RequesterContext)
    (row : SpaceRow) : EvaluationContext :=
  assembleContext now requester (loadPermissionMap db requester.userId) (withChain db row)
    (request.scenario row.id)

/-- The rules of a space that `resolve` reads. -/
def rulesAlone (db : RulesDb) (row : SpaceRow) : List MatchedRule :=
  orderedRules (fetchCandidateRules db row.id) (withChain db row)

section

variable (db : RulesDb) (spaceIds : List String) (row : SpaceRow)

/-- The rules of a space that the bulk path reads: none when it does not read the space. -/
def rulesInBulk : List MatchedRule :=
  match loadSpacesWithAncestors db spaceIds row.id with
  | none => []
  | some space => orderedRules (fetchAllRules db) space

def bulkContext (now : Int) (request : BulkRequest) (requester : RequesterContext) :
    EvaluationContext :=
  assembleContext now requester (loadPermissionMap db requester.userId)
    ((loadSpacesWithAncestors db spaceIds row.id).getD (withChain db row)) (request.scenario row.id)

end

def hydrated (helpers : Helpers) (rules : List MatchedRule) (ctx : EvaluationContext) :
    EvaluationContext :=
  (hydrateContextHelpers helpers (rules.map fun m => m.rule.appliesWhen) ctx).toOption.getD ctx

def firesAlone (db : RulesDb) (now : Int) (request : BulkRequest) (requester : RequesterContext)
    (row : SpaceRow) : MatchedRule → Bool :=
  fires now (hydrated db.helpers (rulesAlone db row) (spaceContext db now request requester row))

def firesInBulk (db : RulesDb) (now : Int) (request : BulkRequest) (requester : RequesterContext)
    (spaceIds : List String) (row : SpaceRow) : MatchedRule → Bool :=
  fires now (hydrated db.helpers (rulesInBulk db spaceIds row)
    (bulkContext db spaceIds row now request requester))

/-- What the two paths read of a space and its rules makes no difference. -/
structure ReadsAlike (db : RulesDb) (now : Int) (request : BulkRequest)
    (requester : RequesterContext) (spaceIds : List String) (row : SpaceRow) : Prop where
  /-- The database answers the helper calls of the rules of the space. -/
  answered : ∀ m ∈ rulesInBulk db spaceIds row,
    ∀ c ∈ helperCalls (bulkContext db spaceIds row now request requester) m.rule.appliesWhen,
      db.helpers.answers c = true
  answeredAlone : ∀ m ∈ rulesAlone db row,
    ∀ c ∈ helperCalls (spaceContext db now request requester row) m.rule.appliesWhen,
      db.helpers.answers c = true
  /-- No rule that only the bulk path reads matches: one aimed at the sixteenth ancestor, or one
  after the page of `resolve`. -/
  onlyInBulk : ∀ m ∈ rulesInBulk db spaceIds row, m ∉ rulesAlone db row →
    firesInBulk db now request requester spaceIds row m = false
  /-- No rule that only `resolve` reads matches: one after the page of the bulk path, or one of a
  space that it does not read. -/
  onlyAlone : ∀ m ∈ rulesAlone db row, m ∉ rulesInBulk db spaceIds row →
    firesAlone db now request requester row m = false
  /-- The other rules match in both paths or in neither. -/
  both : ∀ m ∈ rulesInBulk db spaceIds row, m ∈ rulesAlone db row →
    firesInBulk db now request requester spaceIds row m = firesAlone db now request requester row m

theorem aggregateOutcome_injective {matched matched' : List MatchedRule}
    (h : aggregateOutcome matched = aggregateOutcome matched') : matched = matched' :=
  congrArg ResolveOutcome.matchedRules h

section

variable {now : Int} {helpers : Helpers} {rules : List RuleRow} {ctx : EvaluationContext}

theorem evaluateAndAggregate_eq_ok (hempty : ctx.resolved = {}) :
    evaluateAndAggregate now helpers rules ctx = .ok outcome ↔
      (∀ m ∈ orderedRules rules ctx.space, ∀ c ∈ helperCalls ctx m.rule.appliesWhen,
        helpers.answers c = true) ∧
      outcome = aggregateOutcome ((orderedRules rules ctx.space).filter
        (fires now (hydrated helpers (orderedRules rules ctx.space) ctx))) := by
  have hok := exists_hydrateContextHelpers helpers
    ((orderedRules rules ctx.space).map fun m => m.rule.appliesWhen) hempty
  rw [List.forall_mem_map] at hok
  rw [← hok]
  simp only [evaluateAndAggregate, hydrated]
  cases hydrateContextHelpers helpers
      ((orderedRules rules ctx.space).map fun m => m.rule.appliesWhen) ctx with
  | error e => simp
  | ok ctx' => simp [Except.toOption, eq_comm]

end

variable {now : Int} {request : BulkRequest} {requester : RequesterContext}
  {spaceIds : List String}

theorem nodup_page (p : RuleRow → Bool) :
    ((page ((db.rules.rows.filter p).insertionSort byId)).map RuleRow.id).Nodup := by
  have hrows : ((db.rules.rows.filter p).map RuleRow.id).Nodup :=
    List.Nodup.sublist (List.filter_sublist.map RuleRow.id) db.rules.nodup
  exact (((List.perm_insertionSort byId _).map RuleRow.id).nodup_iff.mpr hrows).sublist
    (page_sublist.map RuleRow.id)

theorem pairwise_rulesAlone : (rulesAlone db row).Pairwise comesFirst :=
  pairwise_comesFirst (nodup_page _)

theorem pairwise_rulesInBulk : (rulesInBulk db spaceIds row).Pairwise comesFirst := by
  unfold rulesInBulk
  cases loadSpacesWithAncestors db spaceIds row.id with
  | none => exact List.Pairwise.nil
  | some space => exact pairwise_comesFirst (nodup_page _)

/-- Two lists of rules in one order, with the same rules kept of both. -/
theorem filter_eq_filter_iff {rules rules' : List MatchedRule} (h : rules.Pairwise comesFirst)
    (h' : rules'.Pairwise comesFirst) (p q : MatchedRule → Bool) :
    rules.filter p = rules'.filter q ↔
      (∀ m ∈ rules, m ∉ rules' → p m = false) ∧ (∀ m ∈ rules', m ∉ rules → q m = false) ∧
        ∀ m ∈ rules, m ∈ rules' → p m = q m := by
  have hmem : rules.filter p = rules'.filter q ↔
      ∀ m, m ∈ rules ∧ p m = true ↔ m ∈ rules' ∧ q m = true := by
    constructor
    · intro heq m
      rw [← List.mem_filter, heq, List.mem_filter]
    · intro hsame
      refine (h.filter p).eq_of_mem_iff (h'.filter q) fun m => ?_
      rw [List.mem_filter, List.mem_filter]
      exact hsame m
  rw [hmem]
  constructor
  · intro hsame
    refine ⟨fun m hm hnot => ?_, fun m hm hnot => ?_, fun m hm hm' => ?_⟩
    · exact Bool.eq_false_iff.mpr fun hp => hnot ((hsame m).mp ⟨hm, hp⟩).1
    · exact Bool.eq_false_iff.mpr fun hq => hnot ((hsame m).mpr ⟨hm, hq⟩).1
    · have hiff := hsame m
      simp only [hm, hm', true_and] at hiff
      exact Bool.eq_iff_iff.mpr hiff
  · rintro ⟨hleft, hright, hboth⟩ m
    constructor
    · rintro ⟨hm, hp⟩
      by_cases hm' : m ∈ rules'
      · exact ⟨hm', hboth m hm hm' ▸ hp⟩
      · exact absurd hp (by simp [hleft m hm hm'])
    · rintro ⟨hm', hq⟩
      by_cases hm : m ∈ rules
      · exact ⟨hm, (hboth m hm hm').symm ▸ hq⟩
      · exact absurd hq (by simp [hright m hm' hm])

/-- `bulkOutcome` of a space. -/
theorem bulkOutcome_eq_ok :
    bulkOutcome db now request spaceIds requester row.id = .ok outcome ↔
      (∀ m ∈ rulesInBulk db spaceIds row,
        ∀ c ∈ helperCalls (bulkContext db spaceIds row now request requester) m.rule.appliesWhen,
          db.helpers.answers c = true) ∧
      outcome = aggregateOutcome ((rulesInBulk db spaceIds row).filter
        (firesInBulk db now request requester spaceIds row)) := by
  unfold bulkOutcome firesInBulk bulkContext rulesInBulk
  cases hspace : loadSpacesWithAncestors db spaceIds row.id with
  | none =>
    constructor
    · intro h
      exact ⟨fun m hm => absurd hm List.not_mem_nil, (Except.ok.inj h).symm⟩
    · rintro ⟨_, rfl⟩
      rfl
  | some space =>
    simp only [evaluateAndAggregate_eq_ok (rfl : (assembleContext now requester
      (loadPermissionMap db requester.userId) space (request.scenario row.id)).resolved = {})]
    rw [show (assembleContext now requester (loadPermissionMap db requester.userId) space
      (request.scenario row.id)).space = space from rfl, orderedRules_filterRulesForSpace]
    rfl

/-- The two paths give a space one outcome exactly when their reads make no difference. -/
theorem readsAlike_iff :
    ReadsAlike db now request requester spaceIds row ↔
      ∃ outcome,
        bulkOutcome db now request spaceIds requester row.id = .ok outcome ∧
          evaluateAndAggregate now db.helpers (fetchCandidateRules db row.id)
            (spaceContext db now request requester row) = .ok outcome := by
  have hempty : (spaceContext db now request requester row).resolved = {} := rfl
  have hfilter := filter_eq_filter_iff (@pairwise_rulesInBulk db row spaceIds)
    (@pairwise_rulesAlone db row) (firesInBulk db now request requester spaceIds row)
    (firesAlone db now request requester row)
  simp only [bulkOutcome_eq_ok, evaluateAndAggregate_eq_ok hempty]
  constructor
  · intro h
    refine ⟨_, ⟨h.answered, rfl⟩, h.answeredAlone, ?_⟩
    exact congrArg aggregateOutcome (hfilter.mpr ⟨h.onlyInBulk, h.onlyAlone, h.both⟩)
  · rintro ⟨_, ⟨hanswered, rfl⟩, hanswered', heq⟩
    obtain ⟨hbulk, halone, hboth⟩ := hfilter.mp (aggregateOutcome_injective heq)
    exact ⟨hanswered, hanswered', hbulk, halone, hboth⟩

/-- Lists that fit in a page, and a space with at most fifteen above it: both paths read the same. -/
theorem readsAlike_of_shallow (hrow : db.spaces.get? row.id = some row) (hmem : row.id ∈ spaceIds)
    (hspaces : spaceIds.length ≤ maxRows) (hrules : (activeRules db).length ≤ maxRows)
    (hshallow : (withChain db row).ancestorIds.length ≤ 16)
    (hanswered : ∀ m ∈ rulesAlone db row,
      ∀ c ∈ helperCalls (spaceContext db now request requester row) m.rule.appliesWhen,
        db.helpers.answers c = true) :
    ReadsAlike db now request requester spaceIds row := by
  have hspace : loadSpacesWithAncestors db spaceIds row.id = some (withChain db row) := by
    rw [loadSpacesWithAncestors_eq hspaces hmem, hrow]
    rfl
  have hcontext : bulkContext db spaceIds row now request requester =
      spaceContext db now request requester row := by
    rw [bulkContext, hspace]
    rfl
  have hnone : ∀ r, aimedBeyond (withChain db row) r = false := by
    intro r
    simp [aimedBeyond, List.drop_eq_nil_of_le hshallow]
  have hsame : rulesInBulk db spaceIds row = rulesAlone db row := by
    rw [rulesInBulk, hspace, rulesAlone, orderedRules_candidates hrow hrules]
    simp [hnone]
  constructor
  case answered => rwa [hsame, hcontext]
  case answeredAlone => exact hanswered
  case onlyInBulk => exact fun m hm hnot => absurd (hsame ▸ hm) hnot
  case onlyAlone => exact fun m hm hnot => absurd (hsame ▸ hm) hnot
  case both =>
    intro m _ _
    rw [firesInBulk, firesAlone, hsame, hcontext]

/-! ## The law -/

/-- `resolveBulk` gives each space of the list the outcome that `resolve` gives it. -/
def BulkAgrees (db : RulesDb) (now : Int) (request : BulkRequest) (spaceIds : List String) : Prop :=
  ∃ outcomes, resolveBulk db now request spaceIds = .ok outcomes ∧
    ∀ spaceId ∈ spaceIds, ∃ outcome,
      resolve db now (request.scenario spaceId) = .ok outcome ∧
        outcomes.lookup spaceId = some outcome

theorem resolve_eq
    (hrequester : loadRequesterContext db request.requesterPersonId = .ok requester) :
    resolve db now (request.scenario spaceId) = .ok outcome ↔
      ∃ row, db.spaces.get? spaceId = some row ∧
        evaluateAndAggregate now db.helpers (fetchCandidateRules db row.id)
          (spaceContext db now request requester row) = .ok outcome := by
  unfold resolve buildContext
  rw [show (request.scenario spaceId).requesterPersonId = request.requesterPersonId from rfl,
    show (request.scenario spaceId).spaceId = spaceId from rfl, hrequester]
  have hone : ([spaceId] : List String).length ≤ maxRows := by simp [maxRows]
  simp only [loadSpacesWithAncestors_eq hone List.mem_cons_self]
  cases hrow : db.spaces.get? spaceId with
  | none => simp
  | some row =>
    obtain rfl : row.id = spaceId := (Table.get?_eq_some.mp hrow).2
    simp [spaceContext]

section

variable {ε α β : Type} {g : α → Except ε β} {as : List α}

theorem mapM_pair_cons {a : α} {b : β} (hg : g a = .ok b) :
    (a :: as).mapM (fun a => (g a).map fun b => (a, b)) =
      (as.mapM fun a => (g a).map fun b => (a, b)).map ((a, b) :: ·) := by
  rw [List.mapM_cons, hg]
  show (as.mapM fun a => (g a).map fun b => (a, b)).bind (fun pairs => .ok ((a, b) :: pairs)) = _
  cases as.mapM fun a => (g a).map fun b => (a, b) with
  | error e => rfl
  | ok pairs => rfl

theorem mapM_pair_cons_error {a : α} {e : ε} (hg : g a = .error e) :
    (a :: as).mapM (fun a => (g a).map fun b => (a, b)) = .error e := by
  rw [List.mapM_cons, hg]
  rfl

theorem exists_mapM : (∃ pairs, as.mapM (fun a => (g a).map fun b => (a, b)) = .ok pairs) ↔
    ∀ a ∈ as, ∃ b, g a = .ok b := by
  induction as with
  | nil => simp [pure, Except.pure]
  | cons a as ih =>
    rw [List.forall_mem_cons, ← ih]
    cases hg : g a with
    | error e => simp [mapM_pair_cons_error hg]
    | ok b =>
      rw [mapM_pair_cons hg]
      cases as.mapM fun a => (g a).map fun b => (a, b) with
      | error e => simp [Except.map]
      | ok pairs => simp [Except.map]

theorem lookup_of_mapM [BEq α] [LawfulBEq α] {pairs : List (α × β)}
    (h : as.mapM (fun a => (g a).map fun b => (a, b)) = .ok pairs) {a : α} (ha : a ∈ as) {b : β} :
    g a = .ok b ↔ pairs.lookup a = some b := by
  induction as generalizing pairs with
  | nil => exact absurd ha List.not_mem_nil
  | cons a₀ as ih =>
    cases hg : g a₀ with
    | error e =>
      rw [mapM_pair_cons_error hg] at h
      cases h
    | ok b₀ =>
      rw [mapM_pair_cons hg] at h
      cases hrest : as.mapM fun a => (g a).map fun b => (a, b) with
      | error e =>
        rw [hrest] at h
        cases h
      | ok rest =>
        rw [hrest] at h
        obtain rfl := Except.ok.inj h
        rw [List.lookup_cons]
        by_cases heq : a = a₀
        · subst heq
          simp [hg]
        · rw [beq_false_of_ne heq]
          exact ih hrest ((List.mem_cons.mp ha).resolve_left heq)

end

/-- The space at height `i`, in the one above it; `s16` is the outermost. -/
def towerSpace (i : Nat) : SpaceRow where
  id := "s" ++ toString i
  parentId := if i = 16 then none else some ("s" ++ toString (i + 1))

/-- A rule on the outermost space that denies every request below it. -/
def towerRule : RuleRow where
  id := "closed"
  name := "Campus closed"
  targetScope := .spaceSubtree
  targetId := some "s16"
  appliesWhen := .object [("and", .array [])]
  effect := .deny
  denialMessage := some "The campus is closed"
  priority := 100
  active := true

/-- Seventeen spaces, each in the next one, and the rule on the outermost. -/
def towerDb : RulesDb where
  rules := ⟨[towerRule], by decide⟩
  spaces := ⟨(List.range 17).map towerSpace, by decide +kernel⟩
  persons := ⟨[{ id := "anna" }], by decide⟩
  userHasPermission := fun _ _ => false
  helpers := { orgNodeDescendants := fun _ => .ok [], inBusinessHours := fun _ _ => .ok true }

/-- The request of `anna` for ten to eleven. -/
def tenToEleven : BulkRequest where
  requesterPersonId := "anna"
  startAt := "2026-03-02T10:00:00Z"
  endAt := "2026-03-02T11:00:00Z"

end Prequest.Rules
