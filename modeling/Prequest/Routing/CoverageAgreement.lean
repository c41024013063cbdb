import Mathlib.Data.Bool.Basic
import Prequest.Lib.FirstHit
import Prequest.Routing.Coverage

/-!
# The coverage matrices and the resolver

The three functions look at the same places: a space some levels up, a domain some
levels up, and the space itself or its groups. The resolver and the double loop go
through the domains first, the query through the spaces. The resolver passes over a
row without a team or a vendor, and it stops at ten spaces.

* `mem_allHits`: the rows of the query.
-/

namespace Prequest.Routing

open Prequest.Lib

/-! ## Places -/

/-- How far up the domain and the space are, and whether the row is a group's. -/
structure Position where
  domainDepth : Nat
  spaceDepth : Nat
  viaGroup : Bool
  deriving DecidableEq, Repr

/-- The order of the resolver and of the double loop. -/
def byDomain (p q : Position) : Prop :=
  p.domainDepth < q.domainDepth ∨ p.domainDepth = q.domainDepth ∧
    (p.spaceDepth < q.spaceDepth ∨ p.spaceDepth = q.spaceDepth ∧ p.viaGroup < q.viaGroup)

def Position.distance (p : Position) : Nat := p.spaceDepth + p.viaGroup.toNat

/-- The order of the query. -/
def bySpace (p q : Position) : Prop :=
  p.distance < q.distance ∨ p.distance = q.distance ∧ p.domainDepth < q.domainDepth

theorem byDomain_asymm (p q : Position) (hpq : byDomain p q) : ¬byDomain q p := by
  unfold byDomain at *
  rcases hpq with h | ⟨_, h | ⟨_, h⟩⟩
  · omega
  · omega
  · intro hqp
    rcases hqp with h' | ⟨_, h' | ⟨_, h'⟩⟩
    · omega
    · omega
    · exact lt_asymm h h'

/-- The places with depths below the bounds, in the order of the loops. -/
def positions (domains spaces : Nat) : List Position :=
  (List.range domains).flatMap fun d => (List.range spaces).flatMap fun s =>
    [⟨d, s, false⟩, ⟨d, s, true⟩]

variable {p : Position} {domains spaces : Nat}

theorem mem_positions :
    p ∈ positions domains spaces ↔ p.domainDepth < domains ∧ p.spaceDepth < spaces := by
  obtain ⟨d, s, g⟩ := p
  simp only [positions, List.mem_flatMap, List.mem_range, List.mem_cons, List.not_mem_nil, or_false,
    Position.mk.injEq]
  constructor
  · rintro ⟨_, hd, _, hs, ⟨rfl, rfl, _⟩ | ⟨rfl, rfl, _⟩⟩
    · exact ⟨hd, hs⟩
    · exact ⟨hd, hs⟩
  · intro h
    refine ⟨d, h.1, s, h.2, ?_⟩
    cases g with
    | false => exact Or.inl ⟨rfl, rfl, rfl⟩
    | true => exact Or.inr ⟨rfl, rfl, rfl⟩

theorem pairwise_positions (domains spaces : Nat) :
    (positions domains spaces).Pairwise byDomain := by
  refine List.pairwise_flatMap.mpr ⟨fun d _ => List.pairwise_flatMap.mpr ⟨fun s _ => ?_, ?_⟩, ?_⟩
  · refine List.pairwise_pair.mpr (Or.inr ⟨rfl, Or.inr ⟨rfl, Bool.false_lt_true⟩⟩)
  · refine List.pairwise_lt_range.imp fun hlt p hp q hq => Or.inr ?_
    simp only [List.mem_cons, List.not_mem_nil, or_false] at hp hq
    rcases hp with rfl | rfl
    · rcases hq with rfl | rfl
      · exact ⟨rfl, Or.inl hlt⟩
      · exact ⟨rfl, Or.inl hlt⟩
    · rcases hq with rfl | rfl
      · exact ⟨rfl, Or.inl hlt⟩
      · exact ⟨rfl, Or.inl hlt⟩
  · refine List.pairwise_lt_range.imp fun hlt p hp q hq => Or.inl ?_
    simp only [List.mem_flatMap, List.mem_cons, List.not_mem_nil, or_false] at hp hq
    obtain ⟨_, _, rfl | rfl⟩ := hp
    · obtain ⟨_, _, rfl | rfl⟩ := hq
      · exact hlt
      · exact hlt
    · obtain ⟨_, _, rfl | rfl⟩ := hq
      · exact hlt
      · exact hlt

/-! ## What lies there -/

variable {db : CoverageDb} {spaceId : Nat} {domain : String}

def rowOf (db : CoverageDb) (dom : String) (space : Nat) (viaGroup : Bool) :
    Option LocationTeamRow :=
  if viaGroup then spaceGroupTeam db space dom else locationTeam db space dom

def rowAt (db : CoverageDb) (spaceId : Nat) (domain : String) (p : Position) :
    Option LocationTeamRow :=
  (up (parentDomainOf db) p.domainDepth (some domain)).bind fun dom =>
    (up (parentOf db) p.spaceDepth (some spaceId)).bind fun space => rowOf db dom space p.viaGroup

def targetAt (db : CoverageDb) (spaceId : Nat) (domain : String) (p : Position) :
    Option AssignmentTarget :=
  fromHit (rowAt db spaceId domain p)

theorem findSome?_positions {α : Type} (domains spaces : Nat)
    (f : String → Nat → Bool → Option α) :
    ((positions domains spaces).findSome? fun p =>
      (up (parentDomainOf db) p.domainDepth (some domain)).bind fun dom =>
        (up (parentOf db) p.spaceDepth (some spaceId)).bind fun space => f dom space p.viaGroup) =
      (List.range domains).findSome? fun d => (up (parentDomainOf db) d (some domain)).bind fun dom =>
        (List.range spaces).findSome? fun s => (up (parentOf db) s (some spaceId)).bind fun space =>
          (f dom space false).or (f dom space true) := by
  unfold positions
  rw [findSome?_flatMap]
  congr 1
  funext d
  rw [findSome?_flatMap]
  cases hd : up (parentDomainOf db) d (some domain) with
  | none => simp [hd]
  | some dom =>
    show List.findSome? _ _ = List.findSome? _ _
    congr 1
    funext s
    cases hs : up (parentOf db) s (some spaceId) with
    | none => simp [hd, hs]
    | some space =>
      cases hown : f dom space false with
      | none => simp [hd, hs, hown]
      | some a => simp [hd, hs, hown]

/-! ## The resolver -/

/-- How many domains the resolver looks at. -/
def domainReach (db : CoverageDb) (domain : String) : Nat :=
  if domain = "" then 0 else (domainChain db domain).length

theorem extendDomainChain_spec (n m : Nat) {chain : List String} {current : String}
    (hlength : chain.length = m + 1)
    (hchain : ∀ i, i < m + 1 → chain[i]? = up (parentDomainOf db) i (some domain))
    (hcurrent : up (parentDomainOf db) m (some domain) = some current) :
    m + 1 ≤ (extendDomainChain db n chain current).length ∧
      ∀ i, i < (extendDomainChain db n chain current).length →
        (extendDomainChain db n chain current)[i]? = up (parentDomainOf db) i (some domain) := by
  induction n generalizing m chain current with
  | zero =>
    rw [extendDomainChain, hlength]
    exact ⟨le_refl _, hchain⟩
  | succ n ih =>
    rw [extendDomainChain]
    split
    · rw [hlength]
      exact ⟨le_refl _, hchain⟩
    · rename_i parent hparent
      split
      · rw [hlength]
        exact ⟨le_refl _, hchain⟩
      · have hnext : up (parentDomainOf db) (m + 1) (some domain) = some parent := by
          rw [up_succ, hcurrent]
          exact hparent
        have hlonger : (chain ++ [parent]).length = m + 1 + 1 := by
          rw [List.length_append, hlength]
          rfl
        have hfollows : ∀ i, i < m + 1 + 1 →
            (chain ++ [parent])[i]? = up (parentDomainOf db) i (some domain) := by
          intro i hi
          by_cases hlast : i = m + 1
          · rw [hlast, hnext, List.getElem?_append_right (by omega), hlength, Nat.sub_self]
            rfl
          · rw [List.getElem?_append_left (by omega)]
            exact hchain i (by omega)
        obtain ⟨hlong, hrest⟩ := ih (m + 1) hlonger hfollows hnext
        exact ⟨by omega, hrest⟩

theorem getElem?_domainChain : 0 < (domainChain db domain).length ∧
    ∀ i, i < (domainChain db domain).length →
      (domainChain db domain)[i]? = up (parentDomainOf db) i (some domain) := by
  refine extendDomainChain_spec 10 0 rfl (fun i hi => ?_) rfl
  obtain rfl : i = 0 := by omega
  rfl

theorem tryLocation_target (dom : String) (d space s : Nat) :
    (tryLocation db dom d space s).bind TraceEntry.target =
      (fromHit (rowOf db dom space false)).or (fromHit (rowOf db dom space true)) := by
  simp only [tryLocation, rowOf, Bool.false_eq_true, if_false, if_true]
  cases fromHit (locationTeam db space dom) with
  | some target => rfl
  | none => cases fromHit (spaceGroupTeam db space dom) <;> rfl

variable {dom : String} {space : Nat}

theorem isSome_target_of_tryLocation {d s : Nat} {entry : TraceEntry}
    (h : tryLocation db dom d space s = some entry) : entry.target.isSome = true := by
  unfold tryLocation at h
  split at h
  · obtain rfl := Option.some.inj h
    rfl
  · obtain ⟨target, _, rfl⟩ := Option.map_eq_some_iff.mp h
    rfl

theorem targetAt_eq (p : Position) : targetAt db spaceId domain p =
    (up (parentDomainOf db) p.domainDepth (some domain)).bind fun dom =>
      (up (parentOf db) p.spaceDepth (some spaceId)).bind fun space =>
        fromHit (rowOf db dom space p.viaGroup) := by
  unfold targetAt rowAt fromHit
  rw [Option.bind_assoc]
  congr 1
  funext dom
  exact Option.bind_assoc _ _ _

theorem getD_target (o : Option TraceEntry) (step : ChosenBy) (reason : String) :
    (o.getD { step := step, isMatch := false, reason := reason, target := none }).target =
      o.bind TraceEntry.target := by
  cases o with
  | none => rfl
  | some entry => rfl

theorem resolveLocation_target :
    (resolveLocation db (some spaceId) (some domain)).target =
      (positions (domainReach db domain) 10).findSome? (targetAt db spaceId domain) := by
  unfold resolveLocation domainReach tryLocationChain
  by_cases hempty : domain = ""
  · simp [hempty, positions]
  · obtain ⟨hpos, hchain⟩ : 0 < (domainChain db domain).length ∧
        ∀ i, i < (domainChain db domain).length →
          (domainChain db domain)[i]? = up (parentDomainOf db) i (some domain) :=
      getElem?_domainChain
    have hnonempty : (domainChain db domain).isEmpty = false := by
      rw [List.isEmpty_eq_false_iff]
      exact List.ne_nil_of_length_pos hpos
    simp only [if_neg hempty, hnonempty, Bool.false_eq_true, if_false]
    have hsearch : ∀ dom d, (((locationChain db spaceId).zipIdx.findSome? fun space =>
        tryLocation db dom d space.1 space.2).bind TraceEntry.target) =
          (List.range 10).findSome? fun s => (up (parentOf db) s (some spaceId)).bind fun space =>
            (fromHit (rowOf db dom space false)).or (fromHit (rowOf db dom space true)) := by
      intro dom d
      unfold locationChain
      rw [bind_findSome? fun _ _ h => isSome_target_of_tryLocation h,
        findSome?_zipIdx (fun i hi => getElem?_climb hi (some spaceId))
          (length_climb_le 10 (some spaceId))]
      simp only [tryLocation_target]
    have hplaces : targetAt db spaceId domain = fun p =>
        (up (parentDomainOf db) p.domainDepth (some domain)).bind fun dom =>
          (up (parentOf db) p.spaceDepth (some spaceId)).bind fun space =>
            fromHit (rowOf db dom space p.viaGroup) := funext targetAt_eq
    rw [hplaces, findSome?_positions (domainChain db domain).length 10
      fun dom space viaGroup => fromHit (rowOf db dom space viaGroup)]
    have hentry : ∀ (dom : String × Nat) (entry : TraceEntry), ((locationChain db spaceId).zipIdx.findSome? fun space =>
        tryLocation db dom.1 dom.2 space.1 space.2) = some entry → entry.target.isSome = true := by
      intro dom entry h
      obtain ⟨space, _, hspace⟩ := List.exists_of_findSome?_eq_some h
      exact isSome_target_of_tryLocation hspace
    rw [getD_target, bind_findSome? hentry, findSome?_zipIdx hchain (le_refl _)]
    simp only [hsearch]

/-! ## The double loop -/

def pick (r : LocationTeamRow) : Option AssignmentTarget := pickTarget r.teamId r.vendorId

theorem coverSpaces_target (dom : String) (d n s : Nat) (k : Option Nat) :
    (coverSpaces db dom d n s k).map CoverageCell.target =
      ((List.range n).findSome? fun i => (up (parentOf db) i k).bind fun space =>
        (rowOf db dom space false).or (rowOf db dom space true)).map pick := by
  induction n generalizing s k with
  | zero => rfl
  | succ n ih =>
    cases k with
    | none =>
      have hnone : (List.range (n + 1)).findSome? (fun i =>
          (up (parentOf db) i none).bind fun space =>
            (rowOf db dom space false).or (rowOf db dom space true)) = none :=
        List.findSome?_eq_none_iff.mpr fun i _ => by rw [up_none, Option.bind_none]
      rw [hnone]
      rfl
    | some spaceId =>
      rw [coverSpaces, List.range_succ_eq_map, List.findSome?_cons]
      simp only [rowOf, up, Option.bind_some, Bool.false_eq_true, if_false, if_true]
      cases locationTeam db spaceId dom with
      | some r => rfl
      | none =>
        cases spaceGroupTeam db spaceId dom with
        | some r => rfl
        | none =>
          rw [List.findSome?_map]
          exact ih (s + 1) (parentOf db spaceId)

def firstRow (db : CoverageDb) (k : Option Nat) (dom : String) : Option LocationTeamRow :=
  (List.range 11).findSome? fun i => (up (parentOf db) i k).bind fun space =>
    (rowOf db dom space false).or (rowOf db dom space true)

theorem coverDomains_target (n d : Nat) (dom : String) (k : Option Nat) :
    (coverDomains db k n d dom).target =
      ((List.range n).findSome? fun i =>
        (up (parentDomainOf db) i (some dom)).bind (firstRow db k)).bind pick := by
  induction n generalizing d dom with
  | zero => rfl
  | succ n ih =>
    have hspaces : (coverSpaces db dom d 11 0 k).map CoverageCell.target =
        (firstRow db k dom).map pick := coverSpaces_target dom d 11 0 k
    rw [coverDomains, List.range_succ_eq_map, List.findSome?_cons]
    simp only [up, Option.bind_some]
    cases hcell : coverSpaces db dom d 11 0 k with
    | some cell =>
      rw [hcell] at hspaces
      obtain ⟨r, hr, htarget⟩ := Option.map_eq_some_iff.mp hspaces.symm
      simp only [hr]
      exact htarget.symm
    | none =>
      rw [hcell] at hspaces
      simp only [Option.map_eq_none_iff.mp hspaces.symm, List.findSome?_map]
      cases hparent : parentDomainOf db dom with
      | none =>
        simp only [Function.comp_def, Option.bind_some, hparent, up, up_none, Option.bind_none]
        rw [List.findSome?_eq_none_iff.mpr fun _ _ => rfl]
        rfl
      | some parent =>
        simp only [Function.comp_def, Option.bind_some, hparent, up]
        exact ih (d + 1) parent

theorem resolveCoverageCell_target :
    (resolveCoverageCell db (some spaceId) domain).target =
      ((positions 11 11).findSome? (rowAt db spaceId domain)).bind pick := by
  show _ = ((positions 11 11).findSome? fun p =>
    (up (parentDomainOf db) p.domainDepth (some domain)).bind fun dom =>
      (up (parentOf db) p.spaceDepth (some spaceId)).bind fun space =>
        rowOf db dom space p.viaGroup).bind pick
  rw [findSome?_positions 11 11 (rowOf db)]
  exact coverDomains_target 11 0 domain (some spaceId)

/-! ## The query -/

/-- The row of `location_teams` is that of a group of the space for the domain. -/
def IsGroupRow (db : CoverageDb) (space : Nat) (dom : String) (r : LocationTeamRow) : Prop :=
  r ∈ db.locationTeams.rows ∧ r.domain = dom ∧
    ∃ m ∈ db.members, m.spaceId = space ∧ r.scope = .spaceGroup m.spaceGroupId

/-- Within reach of the query, the groups of a space have one row for a domain at most. -/
def OneGroupRow (db : CoverageDb) (spaceId : Nat) (domain : String) : Prop :=
  ∀ s, s < 21 → ∀ space, up (parentOf db) s (some spaceId) = some space →
    ∀ d, d < 11 → ∀ dom, up (parentDomainOf db) d (some domain) = some dom →
      ∀ r r', IsGroupRow db space dom r → IsGroupRow db space dom r' → r = r'

variable {r : LocationTeamRow}

theorem locationTeam_eq_some : locationTeam db space dom = some r ↔
      r ∈ db.locationTeams.rows ∧ r.scope = .space space ∧ r.domain = dom := by
  unfold locationTeam
  constructor
  · intro h
    have hcond := List.find?_some h
    simp only [Bool.and_eq_true, beq_iff_eq] at hcond
    exact ⟨List.mem_of_find?_eq_some h, hcond⟩
  · intro h
    have hkey := Table.get?_of_mem h.1
    refine Eq.trans ?_ hkey
    unfold Table.get?
    congr 1
    funext r'
    show _ = decide ((r'.scope, r'.domain) = (r.scope, r.domain))
    simp [h.2.1, h.2.2, Bool.beq_eq_decide_eq]

theorem isGroupRow_of_spaceGroupTeam
    (h : spaceGroupTeam db space dom = some r) : IsGroupRow db space dom r := by
  have hcond := List.find?_some h
  simp only [Bool.and_eq_true, List.any_eq_true, List.mem_map, List.mem_filter, beq_iff_eq] at hcond
  obtain ⟨⟨_, ⟨m, ⟨hm, hspace⟩, rfl⟩, hscope⟩, hdom⟩ := hcond
  exact ⟨List.mem_of_find?_eq_some h, hdom, m, hm, hspace, hscope⟩

theorem spaceGroupTeam_isSome
    (h : IsGroupRow db space dom r) : (spaceGroupTeam db space dom).isSome = true := by
  obtain ⟨hr, hdom, m, hm, hspace, hscope⟩ := h
  refine List.find?_isSome.mpr ⟨r, hr, ?_⟩
  simp only [Bool.and_eq_true, List.any_eq_true, List.mem_map, List.mem_filter, beq_iff_eq]
  exact ⟨⟨_, ⟨m, ⟨hm, hspace⟩, rfl⟩, hscope⟩, hdom⟩

theorem spaceGroupTeam_eq_some {s d : Nat} (hone : OneGroupRow db spaceId domain) (hs : s < 21)
    (hspace : up (parentOf db) s (some spaceId) = some space) (hd : d < 11)
    (hdom : up (parentDomainOf db) d (some domain) = some dom) :
    spaceGroupTeam db space dom = some r ↔ IsGroupRow db space dom r := by
  refine ⟨isGroupRow_of_spaceGroupTeam, fun h => ?_⟩
  obtain ⟨r', hr'⟩ := Option.isSome_iff_exists.mp (spaceGroupTeam_isSome h)
  rw [hr', hone s hs space hspace d hd dom hdom r' r (isGroupRow_of_spaceGroupTeam hr') h]

/-- The row of `all_hits` for a place. -/
def hitOf (p : Position) (r : LocationTeamRow) : HandlerHit where
  teamId := r.teamId
  vendorId := r.vendorId
  source := if p.viaGroup then .spaceGroupTeam else .locationTeam
  spaceDepth := p.distance
  domainDepth := p.domainDepth

theorem mem_allHits (hone : OneGroupRow db spaceId domain) {hit : HandlerHit} :
    hit ∈ allHits db spaceId domain ↔
      ∃ p r, (p.domainDepth < 11 ∧ p.spaceDepth < 21) ∧ rowAt db spaceId domain p = some r ∧
        hit = hitOf p r := by
  simp only [allHits, spaceHits, groupHits, List.mem_append, List.mem_flatMap, List.mem_map,
    List.mem_filter, Prod.exists, List.mk_mem_zipIdx_iff_getElem?, getElem?_climb_eq_some,
    Bool.and_eq_true, beq_iff_eq]
  constructor
  · rintro (⟨space, s, ⟨hs, hspace⟩, dom, d, ⟨hd, hdom⟩, r, ⟨hr, hscope, hdomain⟩, rfl⟩ |
      ⟨space, s, ⟨hs, hspace⟩, dom, d, ⟨hd, hdom⟩, m, ⟨hm, hmember⟩, r, ⟨hr, hscope, hdomain⟩, rfl⟩)
    · refine ⟨⟨d, s, false⟩, r, ⟨hd, hs⟩, ?_, rfl⟩
      simp only [rowAt, hdom, hspace, Option.bind_some, rowOf, Bool.false_eq_true, if_false]
      exact locationTeam_eq_some.mpr ⟨hr, hscope, hdomain⟩
    · refine ⟨⟨d, s, true⟩, r, ⟨hd, hs⟩, ?_, rfl⟩
      simp only [rowAt, hdom, hspace, Option.bind_some, rowOf, if_true]
      exact (spaceGroupTeam_eq_some hone hs hspace hd hdom).mpr ⟨hr, hdomain, m, hm, hmember, hscope⟩
  · rintro ⟨⟨d, s, viaGroup⟩, r, ⟨hd, hs⟩, hrow, rfl⟩
    obtain ⟨dom, hdom, hrow⟩ := Option.bind_eq_some_iff.mp hrow
    obtain ⟨space, hspace, hrow⟩ := Option.bind_eq_some_iff.mp hrow
    cases viaGroup with
    | false =>
      obtain ⟨hr, hscope, hdomain⟩ := locationTeam_eq_some.mp hrow
      exact Or.inl ⟨space, s, ⟨hs, hspace⟩, dom, d, ⟨hd, hdom⟩, r, ⟨hr, hscope, hdomain⟩, rfl⟩
    | true =>
      obtain ⟨hr, hdomain, m, hm, hmember, hscope⟩ :=
        (spaceGroupTeam_eq_some hone hs hspace hd hdom).mp hrow
      exact Or.inr ⟨space, s, ⟨hs, hspace⟩, dom, d, ⟨hd, hdom⟩, m, ⟨hm, hmember⟩, r,
        ⟨hr, hscope, hdomain⟩, rfl⟩

instance : IsTrans HandlerHit hitBefore where
  trans a b c hab hbc := by
    unfold hitBefore at *
    omega

instance : Std.Total hitBefore where
  total a b := by
    unfold hitBefore
    omega

/-! ## The law -/

/-- The target of the first place that has the property, or none if no place has it. -/
def Picks (before : Position → Position → Prop) (ok : Position → Prop)
    (target : Position → Option AssignmentTarget) (picked : Option AssignmentTarget) : Prop :=
  (∃ p, IsFirst before ok p ∧ target p = picked) ∨ (∀ p, ¬ok p) ∧ picked = none

section

variable (db : CoverageDb) (spaceId : Nat) (domain : String) (p : Position)

def ResolverCounts : Prop :=
  (p.domainDepth < domainReach db domain ∧ p.spaceDepth < 10) ∧
    (targetAt db spaceId domain p).isSome = true

/-- The double loop counts a place when it has a row. -/
def CellCounts : Prop :=
  (p.domainDepth < 11 ∧ p.spaceDepth < 11) ∧ (rowAt db spaceId domain p).isSome = true

/-- So does the query, which reaches further up. -/
def HandlerCounts : Prop :=
  (p.domainDepth < 11 ∧ p.spaceDepth < 21) ∧ (rowAt db spaceId domain p).isSome = true

end

variable {picked : Option AssignmentTarget} {row : RequestTypeRow} {requestTypeId : Nat}

theorem findSome?_positions_eq_iff {α : Type} {f : Position → Option α}
    {g : α → Option AssignmentTarget} : ((positions domains spaces).findSome? f).bind g = picked ↔
      Picks byDomain (fun p => (p.domainDepth < domains ∧ p.spaceDepth < spaces) ∧
        (f p).isSome = true) (fun p => (f p).bind g) picked := by
  have hfirst {a : α} := findSome?_eq_some_iff_first (f := f) (b := a) byDomain_asymm
    (pairwise_positions domains spaces)
  simp only [mem_positions] at hfirst
  unfold Picks
  cases hfind : (positions domains spaces).findSome? f with
  | none =>
    have hnone : ∀ p, ¬((p.domainDepth < domains ∧ p.spaceDepth < spaces) ∧
        (f p).isSome = true) := by
      intro p hp
      rw [List.findSome?_eq_none_iff.mp hfind p (mem_positions.mpr hp.1)] at hp
      cases hp.2
    rw [Option.bind_none]
    constructor
    · exact fun h => Or.inr ⟨hnone, h.symm⟩
    · rintro (⟨p, hp, _⟩ | h)
      · exact absurd hp.has (hnone p)
      · exact h.2.symm
  | some a =>
    obtain ⟨p, hp, ha⟩ := hfirst.mp hfind
    rw [Option.bind_some]
    constructor
    · exact fun h => Or.inl ⟨p, hp, (congrArg (fun o => Option.bind o g) ha).trans h⟩
    · rintro (⟨q, hq, hpicked⟩ | h)
      · obtain ⟨b, hb⟩ := Option.isSome_iff_exists.mp hq.has.2
        have hsame := hfirst.mpr ⟨q, hq, hb⟩
        rw [hfind] at hsame
        have hg : g b = picked := (congrArg (fun o => Option.bind o g) hb).symm.trans hpicked
        rw [Option.some.inj hsame]
        exact hg
      · exact absurd hp.has (h.1 p)

theorem resolveLocation_picks : (resolveLocation db (some spaceId) (some domain)).target = picked ↔
      Picks byDomain (ResolverCounts db spaceId domain) (targetAt db spaceId domain) picked := by
  have hsearch : (resolveLocation db (some spaceId) (some domain)).target =
      ((positions (domainReach db domain) 10).findSome? (targetAt db spaceId domain)).bind some := by
    rw [resolveLocation_target, Option.bind_fun_some]
  rw [hsearch, findSome?_positions_eq_iff]
  simp only [Option.bind_fun_some]
  rfl

theorem resolveCoverageCell_picks : (resolveCoverageCell db (some spaceId) domain).target = picked ↔
      Picks byDomain (CellCounts db spaceId domain) (targetAt db spaceId domain) picked := by
  rw [resolveCoverageCell_target, findSome?_positions_eq_iff]
  rfl

/-- The target of the query, whose rows reach the sort in the order of `scan`. -/
def handlerTarget (db : CoverageDb) (scan : List HandlerHit → List HandlerHit) (requestTypeId : Nat)
    (spaceId : Option Nat) : Option AssignmentTarget :=
  (requestTypeRoutingChainHandler db scan requestTypeId spaceId).map HandlerAnswer.target

theorem handlerTarget_eq {scan : List HandlerHit → List HandlerHit}
    (hrow : db.requestTypes.get? requestTypeId = some row) (hdomain : row.domain = some domain) :
    handlerTarget db scan requestTypeId (some spaceId) =
      ((scan (allHits db spaceId domain)).insertionSort hitBefore).head?.bind fun hit =>
        pickTarget hit.teamId hit.vendorId := by
  unfold handlerTarget requestTypeRoutingChainHandler
  simp only [hrow, hdomain, Option.bind_eq_bind, Option.bind_some]
  cases ((scan (allHits db spaceId domain)).insertionSort hitBefore).head? with
  | none => rfl
  | some hit =>
    simp only [Option.bind_some]
    cases pickTarget hit.teamId hit.vendorId with
    | none => rfl
    | some target => rfl

theorem isFirst_iff_hitBefore (hone : OneGroupRow db spaceId domain)
    (hbound : p.domainDepth < 11 ∧ p.spaceDepth < 21) (hrow : rowAt db spaceId domain p = some r) :
    IsFirst bySpace (HandlerCounts db spaceId domain) p ↔
      ∀ hit ∈ allHits db spaceId domain, hitBefore (hitOf p r) hit := by
  constructor
  · intro h hit hmem
    obtain ⟨q, r', hq, hrow', rfl⟩ := (mem_allHits hone).mp hmem
    have hnot := h.first q ⟨hq, by rw [hrow']; rfl⟩
    unfold bySpace at hnot
    show p.distance < q.distance ∨ p.distance = q.distance ∧ p.domainDepth ≤ q.domainDepth
    omega
  · intro h
    refine ⟨⟨hbound, by rw [hrow]; rfl⟩, fun q hq hbefore => ?_⟩
    obtain ⟨r', hrow'⟩ := Option.isSome_iff_exists.mp hq.2
    have hle : p.distance < q.distance ∨ p.distance = q.distance ∧ p.domainDepth ≤ q.domainDepth :=
      h (hitOf q r') ((mem_allHits hone).mpr ⟨q, r', hq.1, hrow', rfl⟩)
    unfold bySpace at hbefore
    omega

/-- The query answers with one target, in whatever order it reads its rows, exactly when all its
first places have this target. -/
theorem handlerTarget_picks (hone : OneGroupRow db spaceId domain)
    (hrequest : db.requestTypes.get? requestTypeId = some row)
    (hdomain : row.domain = some domain) :
    (∀ scan : List HandlerHit → List HandlerHit, (∀ hits, (scan hits).Perm hits) →
      handlerTarget db scan requestTypeId (some spaceId) = picked) ↔
      (∀ p, IsFirst bySpace (HandlerCounts db spaceId domain) p →
        targetAt db spaceId domain p = picked) ∧
      ((∀ p, ¬HandlerCounts db spaceId domain p) → picked = none) := by
  simp only [handlerTarget_eq hrequest hdomain]
  constructor
  · intro h
    constructor
    · intro p hp
      obtain ⟨r, hrow⟩ := Option.isSome_iff_exists.mp hp.has.2
      have hmem : hitOf p r ∈ allHits db spaceId domain :=
        (mem_allHits hone).mpr ⟨p, r, hp.has.1, hrow, rfl⟩
      have hleast := (isFirst_iff_hitBefore hone hp.has.1 hrow).mp hp
      have hpicked := h (fun hits => if hitOf p r ∈ hits then
        hitOf p r :: hits.erase (hitOf p r) else hits) fun hits => by
          split
          · rename_i hin
            exact (List.perm_cons_erase hin).symm
          · exact List.Perm.refl hits
      rw [if_pos hmem, head?_insertionSort_cons fun hit hhit => hleast hit (List.mem_of_mem_erase hhit)]
        at hpicked
      rw [targetAt, hrow]
      exact hpicked
    · intro hnone
      have hempty : allHits db spaceId domain = [] := by
        refine List.eq_nil_iff_forall_not_mem.mpr fun hit hmem => ?_
        obtain ⟨p, r, hbound, hrow, _⟩ := (mem_allHits hone).mp hmem
        exact hnone p ⟨hbound, by rw [hrow]; rfl⟩
      have hpicked := h id fun hits => List.Perm.refl hits
      rw [id_eq, hempty] at hpicked
      exact hpicked.symm
  · rintro ⟨hfirst, hnone⟩ scan hscan
    cases hhead : ((scan (allHits db spaceId domain)).insertionSort hitBefore).head? with
    | none =>
      have hempty : scan (allHits db spaceId domain) = [] := by
        have hlength := List.length_insertionSort hitBefore (scan (allHits db spaceId domain))
        rw [List.head?_eq_none_iff.mp hhead] at hlength
        exact List.eq_nil_of_length_eq_zero hlength.symm
      have hallEmpty : allHits db spaceId domain = [] := by
        have hperm := hscan (allHits db spaceId domain)
        rw [hempty] at hperm
        exact hperm.nil_eq.symm
      refine (hnone fun p hp => ?_).symm
      obtain ⟨r, hrow⟩ := Option.isSome_iff_exists.mp hp.2
      have hmem := (mem_allHits hone).mpr ⟨p, r, hp.1, hrow, rfl⟩
      rw [hallEmpty] at hmem
      exact absurd hmem List.not_mem_nil
    | some hit =>
      obtain ⟨hmem, hleast⟩ := head?_insertionSort hhead
      obtain ⟨p, r, hbound, hrow, rfl⟩ := (mem_allHits hone).mp ((hscan _).mem_iff.mp hmem)
      have hp := (isFirst_iff_hitBefore hone hbound hrow).mpr fun hit' hhit' =>
        hleast hit' ((hscan _).mem_iff.mpr hhit')
      have htarget := hfirst p hp
      rw [targetAt, hrow] at htarget
      exact htarget

/-- Both coverage functions give the target of the resolver, the query in whatever order it reads
its rows. -/
def CoverageAgrees (db : CoverageDb) (requestTypeId spaceId : Nat) (domain : String) : Prop :=
  (resolveCoverageCell db (some spaceId) domain).target =
      (resolveLocation db (some spaceId) (some domain)).target ∧
    ∀ scan : List HandlerHit → List HandlerHit, (∀ hits, (scan hits).Perm hits) →
      handlerTarget db scan requestTypeId (some spaceId) =
        (resolveLocation db (some spaceId) (some domain)).target

/-- The first place that each of the functions counts, in its own order, has one target. -/
def SameFirst (db : CoverageDb) (spaceId : Nat) (domain : String) : Prop :=
  ∃ picked,
    Picks byDomain (ResolverCounts db spaceId domain) (targetAt db spaceId domain) picked ∧
    Picks byDomain (CellCounts db spaceId domain) (targetAt db spaceId domain) picked ∧
    (∀ p, IsFirst bySpace (HandlerCounts db spaceId domain) p →
      targetAt db spaceId domain p = picked) ∧
    ((∀ p, ¬HandlerCounts db spaceId domain p) → picked = none)

/-- The coverage functions agree with the resolver exactly when the first place by domain and space
within ten spaces that has a target, the first within eleven that has a row, and every first one by
space and domain within twenty-one have the same target. -/
theorem coverageAgrees_iff {requestTypeId : Nat} {row : RequestTypeRow}
    (hrequest : db.requestTypes.get? requestTypeId = some row) (hdomain : row.domain = some domain)
    (hone : OneGroupRow db spaceId domain) :
    CoverageAgrees db requestTypeId spaceId domain ↔ SameFirst db spaceId domain := by
  constructor
  · intro h
    exact ⟨_, resolveLocation_picks.mp rfl, resolveCoverageCell_picks.mp h.1,
      (handlerTarget_picks hone hrequest hdomain).mp h.2⟩
  · rintro ⟨picked, hresolver, hcell, hhandler⟩
    have hpicked := resolveLocation_picks.mpr hresolver
    refine ⟨(resolveCoverageCell_picks.mpr hcell).trans hpicked.symm, fun scan hscan => ?_⟩
    rw [hpicked]
    exact (handlerTarget_picks hone hrequest hdomain).mpr hhandler scan hscan

theorem oneGroupRow_of_nil (h : db.members = []) : OneGroupRow db spaceId domain := by
  intro s _ space _ d _ dom _ r r' hr _
  obtain ⟨_, _, m, hm, _⟩ := hr
  rw [h] at hm
  exact absurd hm List.not_mem_nil

/-- One building with a team for its facilities. -/
def oneBuilding : CoverageDb where
  spaces := ⟨[{ id := 1 }], by decide⟩
  domainParents := ⟨[], by decide⟩
  members := []
  locationTeams := ⟨[{ scope := .space 1, domain := "fm", teamId := some 9 }], by decide⟩
  requestTypes := ⟨[{ id := 5, domain := some "fm" }], by decide⟩

theorem rowAt_oneBuilding (h : (rowAt oneBuilding 1 "fm" p).isSome = true) : p = ⟨0, 0, false⟩ := by
  obtain ⟨d, s, viaGroup⟩ := p
  obtain ⟨r, hr⟩ := Option.isSome_iff_exists.mp h
  obtain ⟨dom, hdom, hr⟩ := Option.bind_eq_some_iff.mp hr
  obtain ⟨space, hspace, hr⟩ := Option.bind_eq_some_iff.mp hr
  have hd : d = 0 := by
    cases d with
    | zero => rfl
    | succ d =>
      have hnone : up (parentDomainOf oneBuilding) (d + 1) (some "fm") = none := up_none d
      rw [hnone] at hdom
      cases hdom
  have hs : s = 0 := by
    cases s with
    | zero => rfl
    | succ s =>
      have hnone : up (parentOf oneBuilding) (s + 1) (some 1) = none := up_none s
      rw [hnone] at hspace
      cases hspace
  cases viaGroup with
  | false => rw [hd, hs]
  | true =>
    obtain ⟨_, _, m, hm, _⟩ := isGroupRow_of_spaceGroupTeam hr
    exact absurd hm List.not_mem_nil

/-- The three functions agree on it. -/
theorem oneBuilding_agrees : CoverageAgrees oneBuilding 5 1 "fm" := by
  refine (coverageAgrees_iff (rfl : oneBuilding.requestTypes.get? 5 = some _) rfl
    (oneGroupRow_of_nil rfl)).mpr ⟨some (.team 9), ?_, ?_, ?_, ?_⟩
  · refine Or.inl ⟨⟨0, 0, false⟩, ⟨⟨by decide, by decide⟩, fun q hq hbefore => ?_⟩, by decide⟩
    have hrow : (rowAt oneBuilding 1 "fm" q).isSome = true := by
      by_contra hne
      have htarget := hq.2
      rw [targetAt, Option.not_isSome_iff_eq_none.mp hne] at htarget
      cases htarget
    rw [rowAt_oneBuilding hrow] at hbefore
    exact byDomain_asymm _ _ hbefore hbefore
  · refine Or.inl ⟨⟨0, 0, false⟩, ⟨⟨by decide, by decide⟩, fun q hq hbefore => ?_⟩, by decide⟩
    rw [rowAt_oneBuilding hq.2] at hbefore
    exact byDomain_asymm _ _ hbefore hbefore
  · intro p hp
    rw [rowAt_oneBuilding hp.has.2]
    decide
  · intro hnone
    exact absurd ⟨by decide, by decide⟩ (hnone ⟨0, 0, false⟩)

/-- A building on a site: the building has a team for facilities, the site one for doors, and doors
are a kind of facility. -/
def doorsOnSite : CoverageDb where
  spaces := ⟨[{ id := 1, parentId := some 2 }, { id := 2 }], by decide⟩
  domainParents := ⟨[{ domain := "doors", parentDomain := "fm" }], by decide⟩
  members := []
  locationTeams := ⟨[{ scope := .space 1, domain := "fm", teamId := some 7 },
    { scope := .space 2, domain := "doors", teamId := some 8 }], by decide⟩
  requestTypes := ⟨[{ id := 5, domain := some "doors" }], by decide⟩

/-- The resolver sends a door of the building to the team of the site, the query to the team of the
building. -/
theorem doorsOnSite_disagree :
    OneGroupRow doorsOnSite 1 "doors" ∧ ¬CoverageAgrees doorsOnSite 5 1 "doors" := by
  refine ⟨oneGroupRow_of_nil rfl, fun h => ?_⟩
  have hquery := h.2 id fun hits => List.Perm.refl hits
  have hteams : handlerTarget doorsOnSite id 5 (some 1) = some (.team 7) ∧
      (resolveLocation doorsOnSite (some 1) (some "doors")).target = some (.team 8) := by
    decide +kernel
  rw [hteams.1, hteams.2] at hquery
  cases hquery

end Prequest.Routing
