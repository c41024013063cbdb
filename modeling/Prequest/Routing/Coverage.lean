import Mathlib.Data.List.Sort
import Mathlib.Data.String.Basic
import Prequest.Lib.Climb
import Prequest.Lib.Table

/-!
# Who handles a request at a place

Teams and vendors are attached to a space or to a group of spaces, for one domain
of work. A request finds its handler by going up the spaces from its location and
up the domains from its own. The resolver does so when a request comes in. The
coverage matrices of the administrator answer the same question in SQL, one with a
double loop and one with a query over all pairs of a space and a domain.
-/

namespace Prequest.Routing

open Prequest.Lib

/-! ## Rows -/

/-- A row of `spaces`. -/
structure SpaceRow where
  id : Nat
  parentId : Option Nat := none
  deriving DecidableEq, Repr

instance : Keyed SpaceRow Nat where
  key := SpaceRow.id

/-- A row of `domain_parents`; a domain has one parent at most. -/
structure DomainParentRow where
  domain : String
  parentDomain : String
  deriving DecidableEq, Repr

instance : Keyed DomainParentRow String where
  key := DomainParentRow.domain

/-- A row of `space_group_members`. -/
structure GroupMemberRow where
  spaceGroupId : Nat
  spaceId : Nat
  deriving DecidableEq, Repr

/-- What a row of `location_teams` is attached to: `location_teams_scope_check`. -/
inductive TeamScope where
  | space (spaceId : Nat)
  | spaceGroup (spaceGroupId : Nat)
  deriving DecidableEq, Repr

/-- A row of `location_teams`. A scope has one row for a domain at most. -/
structure LocationTeamRow where
  scope : TeamScope
  domain : String
  teamId : Option Nat := none
  vendorId : Option Nat := none
  deriving DecidableEq, Repr

instance : Keyed LocationTeamRow (TeamScope × String) where
  key r := (r.scope, r.domain)

/-- A row of `request_types`. -/
structure RequestTypeRow where
  id : Nat
  domain : Option String
  deriving DecidableEq, Repr

instance : Keyed RequestTypeRow Nat where
  key := RequestTypeRow.id

/-- What the three functions read of one tenant. -/
structure CoverageDb where
  spaces : Table SpaceRow
  domainParents : Table DomainParentRow
  members : List GroupMemberRow
  locationTeams : Table LocationTeamRow
  requestTypes : Table RequestTypeRow

inductive AssignmentTarget where
  | team (teamId : Nat)
  | vendor (vendorId : Nat)
  deriving DecidableEq, Repr

/-- `pickTarget`: the team before the vendor. -/
def pickTarget (teamId vendorId : Option Nat) : Option AssignmentTarget :=
  match teamId, vendorId with
  | some team, _ => some (.team team)
  | none, some vendor => some (.vendor vendor)
  | none, none => none

/-! ## `ResolverRepository` -/

section

variable (db : CoverageDb) (spaceId : Nat)

def parentOf : Option Nat :=
  (db.spaces.get? spaceId).bind SpaceRow.parentId

def locationChain : List Nat :=
  climb (parentOf db) 10 (some spaceId)

def locationTeam (domain : String) : Option LocationTeamRow :=
  db.locationTeams.rows.find? fun r => r.scope == .space spaceId && r.domain == domain

def spaceGroupTeam (domain : String) : Option LocationTeamRow :=
  let groupIds := (db.members.filter fun m => m.spaceId == spaceId).map GroupMemberRow.spaceGroupId
  db.locationTeams.rows.find? fun r =>
    groupIds.any (fun groupId => r.scope == .spaceGroup groupId) && r.domain == domain

end

def parentDomainOf (db : CoverageDb) (domain : String) : Option String :=
  (db.domainParents.get? domain).map DomainParentRow.parentDomain

/-- The loop of `domainChain`: it stops at an empty domain and at one it has seen. -/
def extendDomainChain (db : CoverageDb) : Nat → List String → String → List String
  | 0, chain, _ => chain
  | n + 1, chain, current =>
      match parentDomainOf db current with
      | none => chain
      | some parent =>
          if parent = "" ∨ parent ∈ chain then chain
          else extendDomainChain db n (chain ++ [parent]) parent

def domainChain (db : CoverageDb) (domain : String) : List String :=
  extendDomainChain db 10 [domain] domain

/-! ## `ResolverService` -/

inductive ChosenBy where
  | locationTeam
  | parentLocationTeam
  | spaceGroupTeam
  | domainFallback
  deriving DecidableEq, Repr

/-- A line of the trace that `tryLocationChain` writes. -/
structure TraceEntry where
  step : ChosenBy
  isMatch : Bool
  reason : String
  target : Option AssignmentTarget
  deriving DecidableEq, Repr

def fromHit (hit : Option LocationTeamRow) : Option AssignmentTarget :=
  hit.bind fun r => pickTarget r.teamId r.vendorId

def hitEntry (step : ChosenBy) (reason : String) (target : AssignmentTarget) : TraceEntry where
  step := step
  isMatch := true
  reason := reason
  target := some target

/-- The body of the two loops: one space and one domain. -/
def tryLocation (db : CoverageDb) (dom : String) (d : Nat) (spaceId s : Nat) : Option TraceEntry :=
  match fromHit (locationTeam db spaceId dom) with
  | some target =>
      let step : ChosenBy :=
        if 0 < d then .domainFallback else if s = 0 then .locationTeam else .parentLocationTeam
      some (hitEntry step ("space " ++ toString spaceId ++ " domain " ++ dom) target)
  | none =>
      (fromHit (spaceGroupTeam db spaceId dom)).map fun target =>
        hitEntry (if 0 < d then .domainFallback else .spaceGroupTeam)
          ("space " ++ toString spaceId ++ " (via group) domain " ++ dom) target

/-- `tryLocationChain`: the entry that it adds to the trace. Its target and step are the result. -/
def tryLocationChain (db : CoverageDb) (chain : List Nat) (domainChain : List String) : TraceEntry :=
  if domainChain.isEmpty then
    { step := .locationTeam, isMatch := false, reason := "no domain in context", target := none }
  else
    let found := domainChain.zipIdx.findSome? fun dom =>
      chain.zipIdx.findSome? fun space => tryLocation db dom.1 dom.2 space.1 space.2
    found.getD
      { step := .locationTeam, isMatch := false
        reason := "no location match across domain chain", target := none }

/-- `tryLocationChain` on the chains that `hydrate` loads for a location and a domain. -/
def resolveLocation (db : CoverageDb) (locationId : Option Nat) (domain : Option String) :
    TraceEntry :=
  tryLocationChain db
    (match locationId with
      | none => []
      | some spaceId => locationChain db spaceId)
    (match domain with
      | none => []
      | some domain => if domain = "" then [] else domainChain db domain)

/-! ## `resolve_coverage_cell` -/

inductive CellReason where
  | direct
  | parent
  | spaceGroup
  | domainFallback
  | uncovered
  deriving DecidableEq, Repr

/-- The row that the function returns. -/
structure CoverageCell where
  chosenBy : CellReason
  /-- `target_kind` and `target_id`. -/
  target : Option AssignmentTarget := none
  viaParentSpaceId : Option Nat := none
  viaSpaceGroupId : Option Nat := none
  viaParentDomain : Option String := none
  deriving DecidableEq, Repr

def TeamScope.group? : TeamScope → Option Nat
  | .space _ => none
  | .spaceGroup groupId => some groupId

/-- The inner loop: the spaces that are left, from depth `s` on. -/
def coverSpaces (db : CoverageDb) (dom : String) (d : Nat) :
    Nat → Nat → Option Nat → Option CoverageCell
  | 0, _, _ => none
  | _ + 1, _, none => none
  | n + 1, s, some spaceId =>
      let viaSpace := if 0 < s then some spaceId else none
      match locationTeam db spaceId dom with
      | some r =>
          some
            { chosenBy := if 0 < d then .domainFallback else if 0 < s then .parent else .direct
              target := pickTarget r.teamId r.vendorId
              viaParentSpaceId := viaSpace
              viaParentDomain := if 0 < d then some dom else none }
      | none =>
          match spaceGroupTeam db spaceId dom with
          | some r =>
              some
                { chosenBy := if 0 < d then .domainFallback else .spaceGroup
                  target := pickTarget r.teamId r.vendorId
                  viaParentSpaceId := viaSpace
                  viaSpaceGroupId := r.scope.group?
                  viaParentDomain := if 0 < d then some dom else none }
          | none => coverSpaces db dom d n (s + 1) (parentOf db spaceId)

/-- The outer loop: the domains that are left, from depth `d` on. -/
def coverDomains (db : CoverageDb) (spaceId : Option Nat) : Nat → Nat → String → CoverageCell
  | 0, _, _ => { chosenBy := .uncovered }
  | n + 1, d, dom =>
      match coverSpaces db dom d 11 0 spaceId with
      | some cell => cell
      | none =>
          match parentDomainOf db dom with
          | none => { chosenBy := .uncovered }
          | some parent => coverDomains db spaceId n (d + 1) parent

def resolveCoverageCell (db : CoverageDb) (spaceId : Option Nat) (domain : String) : CoverageCell :=
  coverDomains db spaceId 11 0 domain

/-! ## `request_type_routing_chain_handler` -/

inductive HitSource where
  | locationTeam
  | spaceGroupTeam
  deriving DecidableEq, Repr

/-- A row of `all_hits`. -/
structure HandlerHit where
  teamId : Option Nat
  vendorId : Option Nat
  source : HitSource
  spaceDepth : Nat
  domainDepth : Nat
  deriving DecidableEq, Repr

def spaceHits (db : CoverageDb) (ancestors : List (Nat × Nat)) (domains : List (String × Nat)) :
    List HandlerHit :=
  ancestors.flatMap fun a => domains.flatMap fun d =>
    (db.locationTeams.rows.filter fun r => r.scope == .space a.1 && r.domain == d.1).map fun r =>
      { teamId := r.teamId, vendorId := r.vendorId, source := .locationTeam
        spaceDepth := a.2, domainDepth := d.2 }

def groupHits (db : CoverageDb) (ancestors : List (Nat × Nat)) (domains : List (String × Nat)) :
    List HandlerHit :=
  ancestors.flatMap fun a => domains.flatMap fun d =>
    (db.members.filter fun m => m.spaceId == a.1).flatMap fun m =>
      (db.locationTeams.rows.filter fun r =>
        r.scope == .spaceGroup m.spaceGroupId && r.domain == d.1).map fun r =>
          { teamId := r.teamId, vendorId := r.vendorId, source := .spaceGroupTeam
            spaceDepth := a.2 + 1, domainDepth := d.2 }

def allHits (db : CoverageDb) (spaceId : Nat) (domain : String) : List HandlerHit :=
  let ancestors := (climb (parentOf db) 21 (some spaceId)).zipIdx
  let domains := (climb (parentDomainOf db) 11 (some domain)).zipIdx
  spaceHits db ancestors domains ++ groupHits db ancestors domains

/-- `order by space_depth asc, domain_depth asc`. -/
def hitBefore (a b : HandlerHit) : Prop :=
  a.spaceDepth < b.spaceDepth ∨ a.spaceDepth = b.spaceDepth ∧ a.domainDepth ≤ b.domainDepth

instance : DecidableRel hitBefore := fun a b => by
  unfold hitBefore
  infer_instance

/-- The object that the function returns. -/
structure HandlerAnswer where
  target : AssignmentTarget
  source : HitSource
  spaceDepth : Nat
  domainDepth : Nat
  deriving DecidableEq, Repr

/-- The first row of `all_hits`. The order of rows with equal depths is that in which they reach the
sort, which `scan` says. -/
def requestTypeRoutingChainHandler (db : CoverageDb) (scan : List HandlerHit → List HandlerHit)
    (requestTypeId : Nat) (spaceId : Option Nat) : Option HandlerAnswer := do
  let spaceId ← spaceId
  let domain ← (db.requestTypes.get? requestTypeId).bind RequestTypeRow.domain
  let hit ← ((scan (allHits db spaceId domain)).insertionSort hitBefore).head?
  let target ← pickTarget hit.teamId hit.vendorId
  some
    { target := target
      source := hit.source
      spaceDepth := hit.spaceDepth
      domainDepth := hit.domainDepth }

end Prequest.Routing
