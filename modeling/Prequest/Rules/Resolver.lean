import Mathlib.Data.String.Basic
import Prequest.Booking.EditPlan
import Prequest.Lib.Sorting
import Prequest.Lib.Walk
import Prequest.Rules.Predicate
import Prequest.Shared.DataApi

/-!
# Resolving the room rules

A room rule is aimed at one room, at the spaces under a space, at a type of room
or at the whole tenant. The rules that apply to a space are evaluated from the
most specific bucket to the least, by priority within a bucket, and the effects of
those that match are put together.

One space is resolved by `resolve`, which asks the database for the rules that can
apply to it. The picker resolves many spaces with `resolveBulk`, which asks for all
rules and all spaces once and picks the rules of each space itself. Each of these
queries gets one page.
-/

namespace Prequest.Rules

open Prequest.Lib Prequest.Shared Prequest.Booking

/-! ## Rows -/

inductive RuleEffect where
  | deny
  | requireApproval
  | allowOverride
  | warn
  deriving DecidableEq, Repr

inductive TargetScope where
  | room
  | roomType
  | spaceSubtree
  | tenant
  deriving DecidableEq, Repr

/-- A row of `room_booking_rules`. -/
structure RuleRow where
  id : String
  name : String
  targetScope : TargetScope
  targetId : Option String
  appliesWhen : JsValue
  effect : RuleEffect
  approvalConfig : Option ApprovalConfig := none
  denialMessage : Option String := none
  priority : Int
  active : Bool
  workflowDefinitionId : Option String := none

instance : Keyed RuleRow String where
  key := RuleRow.id

/-- A rule with its bucket: 1 for a room, 2 for a subtree, 3 for a type, 4 for the tenant. -/
structure MatchedRule where
  rule : RuleRow
  specificity : Nat

/-- A row of `spaces`. -/
structure SpaceRow where
  id : String
  type : Option String := none
  parentId : Option String := none
  capacity : Option Int := none
  minAttendees : Option Int := none
  defaultCalendarId : Option String := none
  deriving DecidableEq, Repr

instance : Keyed SpaceRow String where
  key := SpaceRow.id

structure PersonRow where
  id : String
  type : Option String := none
  costCenter : Option String := none
  deriving DecidableEq, Repr

instance : Keyed PersonRow String where
  key := PersonRow.id

structure MembershipRow where
  personId : String
  orgNodeId : String
  isPrimary : Bool
  deriving DecidableEq, Repr

structure UserRow where
  id : String
  personId : String
  deriving DecidableEq, Repr

structure RoleAssignmentRow where
  userId : String
  roleId : String
  active : Bool
  deriving DecidableEq, Repr

/-- What the resolver reads of one tenant. -/
structure RulesDb where
  rules : Table RuleRow
  spaces : Table SpaceRow
  persons : Table PersonRow
  memberships : List MembershipRow := []
  users : List UserRow := []
  roleAssignments : List RoleAssignmentRow := []
  /-- `user_has_permission`. -/
  userHasPermission : String → String → Bool
  helpers : Helpers

inductive ResolveError where
  | personNotFound (id : String)
  /-- `maybeSingle` found more than one row. -/
  | multipleRows
  /-- `room_rule.space_not_found`. -/
  | spaceNotFound (id : String)
  | hydrate (e : HydrateError)
  deriving DecidableEq, Repr

/-! ## Buckets -/

def specificityFor (space : SpaceWithChain) (r : RuleRow) : Option Nat :=
  if !r.active then none
  else match r.targetScope with
    | .room => if r.targetId = some space.id then some 1 else none
    | .spaceSubtree =>
        if r.targetId.any fun target => target != "" && space.ancestorIds.contains target then some 2
        else none
    | .roomType =>
        if r.targetId.all fun target => target == space.type.getD "null" then some 3 else none
    | .tenant => some 4

def bucketRulesBySpecificity (rules : List RuleRow) (space : SpaceWithChain) :
    List (Nat × List RuleRow) :=
  [1, 2, 3, 4].filterMap fun specificity =>
    let bucket := rules.filter fun r => specificityFor space r == some specificity
    if bucket.isEmpty then none else some (specificity, bucket)

def filterRulesForSpace (rules : List RuleRow) (space : SpaceWithChain) : List RuleRow :=
  (bucketRulesBySpecificity rules space).flatMap Prod.snd

/-- `compareRulesWithinSpecificity`: the higher priority first, then the smaller id. -/
def beforeRule (a b : RuleRow) : Prop :=
  b.priority < a.priority ∨ a.priority = b.priority ∧ a.id ≤ b.id

instance : DecidableRel beforeRule := fun a b => by
  unfold beforeRule
  infer_instance

def orderedRules (rules : List RuleRow) (space : SpaceWithChain) : List MatchedRule :=
  (bucketRulesBySpecificity rules space).flatMap fun bucket =>
    (bucket.2.insertionSort beforeRule).map fun r => { rule := r, specificity := bucket.1 }

/-! ## Outcomes -/

structure ResolveOutcome where
  effects : List RuleEffect
  matchedRules : List MatchedRule
  warnings : List String
  denialMessages : List String
  overridable : Bool
  approvalConfig : Option ApprovalConfig
  approvalWorkflowDefinitionId : Option String
  final : RuleOutcome

def emptyOutcome : ResolveOutcome where
  effects := []
  matchedRules := []
  warnings := []
  denialMessages := []
  overridable := false
  approvalConfig := none
  approvalWorkflowDefinitionId := none
  final := .allow

/-- The variables of the loop over the matched rules. -/
structure Aggregation where
  denials : List String := []
  warnings : List String := []
  overridable : Bool := false
  approvalConfig : Option ApprovalConfig := none
  approvalWorkflowDefinitionId : Option String := none
  /-- The specificity and the priority of the rule whose approval is kept. -/
  approvalRank : Option (Nat × Int) := none
  hasDeny : Bool := false
  hasApproval : Bool := false

def nonEmpty (text : Option String) : Option String := text.filter (· ≠ "")

/-- A rule goes before the one whose approval is kept. -/
def outranks (r : MatchedRule) : Option (Nat × Int) → Bool
  | none => true
  | some (specificity, priority) =>
      decide (r.specificity < specificity) ||
        r.specificity == specificity && decide (priority < r.rule.priority)

def Aggregation.add (acc : Aggregation) (r : MatchedRule) : Aggregation :=
  match r.rule.effect with
  | .deny =>
      { acc with
        hasDeny := true
        denials := acc.denials ++ (nonEmpty r.rule.denialMessage).toList }
  | .requireApproval =>
      if outranks r acc.approvalRank then
        { acc with
          hasApproval := true
          approvalRank := some (r.specificity, r.rule.priority)
          approvalConfig := r.rule.approvalConfig
          approvalWorkflowDefinitionId := r.rule.workflowDefinitionId }
      else { acc with hasApproval := true }
  | .warn =>
      { acc with
        warnings := acc.warnings ++ [(nonEmpty r.rule.denialMessage).getD
          ("Warning from rule \"" ++ r.rule.name ++ "\"")] }
  | .allowOverride => { acc with overridable := true }

def aggregateOutcome (matched : List MatchedRule) : ResolveOutcome :=
  let acc := matched.foldl Aggregation.add {}
  { effects := matched.map fun r => r.rule.effect
    matchedRules := matched
    warnings := acc.warnings
    denialMessages := acc.denials
    overridable := acc.overridable
    approvalConfig := acc.approvalConfig
    approvalWorkflowDefinitionId := acc.approvalWorkflowDefinitionId
    final := if acc.hasDeny then .deny else if acc.hasApproval then .requireApproval else .allow }

/-- A rule matches when its predicate holds. A predicate that throws does not. -/
def fires (now : Int) (ctx : EvaluationContext) (r : MatchedRule) : Bool :=
  match evaluate now ctx r.rule.appliesWhen with
  | .ok b => b
  | .error _ => false

/-- The rules that match, once the answers their predicates need are fetched. -/
def evaluateAndAggregate (now : Int) (helpers : Helpers) (rules : List RuleRow)
    (ctx : EvaluationContext) : Except ResolveError ResolveOutcome :=
  let ordered := orderedRules rules ctx.space
  match hydrateContextHelpers helpers (ordered.map fun r => r.rule.appliesWhen) ctx with
  | .error e => .error (.hydrate e)
  | .ok ctx => .ok (aggregateOutcome (ordered.filter (fires now ctx)))

/-! ## The requester -/

def maybeSingle {α : Type} : List α → Except ResolveError (Option α)
  | [] => .ok none
  | [a] => .ok (some a)
  | _ => .error .multipleRows

def loadRequesterContext (db : RulesDb) (personId : String) :
    Except ResolveError RequesterContext := do
  let membership ← maybeSingle (db.memberships.filter fun m => m.personId == personId && m.isPrimary)
  let user ← maybeSingle (db.users.filter fun u => u.personId == personId)
  match db.persons.get? personId with
  | none => .error (.personNotFound personId)
  | some person =>
      let roleIds := match user with
        | none => []
        | some user => (page (db.roleAssignments.filter fun a =>
            a.userId == user.id && a.active)).map RoleAssignmentRow.roleId
      .ok
        { id := personId
          type := person.type
          costCenter := person.costCenter
          orgNodeId := membership.map MembershipRow.orgNodeId
          roleIds := roleIds
          userId := user.map UserRow.id }

/-- `PERMS`. -/
def perms : List String := ["rooms.override_rules", "rooms.book_on_behalf"]

def loadPermissionMap (db : RulesDb) : Option String → List (String × Bool)
  | none => []
  | some userId => perms.map fun perm => (perm, db.userHasPermission userId perm)

/-! ## Spaces -/

/-- The ids from the space upwards, at most 16 of them. -/
def loadAncestorChain (db : RulesDb) (spaceId : String) : List String :=
  (walk db.spaces.get? SpaceRow.parentId 16 (some spaceId)).map SpaceRow.id

/-- The spaces that are read, each with its own id and those of at most 16 spaces above it. -/
def loadSpacesWithAncestors (db : RulesDb) (spaceIds : List String) (spaceId : String) :
    Option SpaceWithChain :=
  let fetched := lookupIn (fetchAll SpaceRow.parentId maxRows db.spaces spaceIds)
  if spaceIds.contains spaceId then
    (fetched spaceId).map fun seed =>
      { id := seed.id
        type := seed.type
        parentId := seed.parentId
        capacity := seed.capacity
        minAttendees := seed.minAttendees
        defaultCalendarId := seed.defaultCalendarId
        ancestorIds := seed.id ::
          (walk fetched SpaceRow.parentId 16 seed.parentId).map SpaceRow.id }
  else none

/-! ## Rules -/

def byId (a b : RuleRow) : Prop := a.id ≤ b.id

instance : DecidableRel byId := fun a b => by
  unfold byId
  infer_instance

def isCandidate (targets : List String) (spaceId : String) (r : RuleRow) : Bool :=
  match r.targetScope with
  | .tenant | .roomType => true
  | .room => r.targetId == some spaceId
  | .spaceSubtree => r.targetId.any fun target => targets.contains target

def fetchCandidateRules (db : RulesDb) (spaceId : String) : List RuleRow :=
  let targets := loadAncestorChain db spaceId ++ [spaceId]
  page ((db.rules.rows.filter fun r => r.active && isCandidate targets spaceId r).insertionSort byId)

/-- The active rules in the order of their ids. -/
def activeRules (db : RulesDb) : List RuleRow :=
  (db.rules.rows.filter fun r => r.active).insertionSort byId

def fetchAllRules (db : RulesDb) : List RuleRow := page (activeRules db)

/-! ## The two paths -/

structure BookingScenario where
  requesterPersonId : String
  spaceId : String
  startAt : String
  endAt : String
  attendeeCount : Option Int := none
  resolutionBasisAt : Option String := none
  deriving DecidableEq, Repr

/-- `Math.round(ms / 60_000)`. -/
def roundMinutes (ms : Int) : Int := (2 * ms + 60000) / 120000

def assembleContext (now : Int) (requester : RequesterContext) (permissions : List (String × Bool))
    (space : SpaceWithChain) (scenario : BookingScenario) : EvaluationContext :=
  let basisMs := (scenario.resolutionBasisAt.bind dateParse).getD now
  let start := dateParse scenario.startAt
  { resolutionBasisAt := scenario.resolutionBasisAt
    requester := requester
    space := space
    booking :=
      { startAt := scenario.startAt
        endAt := scenario.endAt
        durationMinutes := match start, dateParse scenario.endAt with
          | some startMs, some endMs => roundMinutes (endMs - startMs)
          | _, _ => 0
        leadTimeMinutes := match start with
          | some startMs => roundMinutes (startMs - basisMs)
          | none => 0
        attendeeCount := scenario.attendeeCount }
    permissions := permissions
    resolutionBasisMs := basisMs }

def buildContext (db : RulesDb) (now : Int) (scenario : BookingScenario) :
    Except ResolveError EvaluationContext :=
  match loadRequesterContext db scenario.requesterPersonId with
  | .error e => .error e
  | .ok requester =>
      match loadSpacesWithAncestors db [scenario.spaceId] scenario.spaceId with
      | none => .error (.spaceNotFound scenario.spaceId)
      | some space => .ok
          (assembleContext now requester (loadPermissionMap db requester.userId) space scenario)

/-- `resolve`. -/
def resolve (db : RulesDb) (now : Int) (scenario : BookingScenario) :
    Except ResolveError ResolveOutcome :=
  match buildContext db now scenario with
  | .error e => .error e
  | .ok ctx => evaluateAndAggregate now db.helpers (fetchCandidateRules db scenario.spaceId) ctx

/-- The arguments of `resolveBulk` besides the spaces. -/
structure BulkRequest where
  requesterPersonId : String
  startAt : String
  endAt : String
  /-- `criteria.attendee_count`. -/
  attendeeCount : Option Int := none
  deriving DecidableEq, Repr

def BulkRequest.scenario (request : BulkRequest) (spaceId : String) : BookingScenario where
  requesterPersonId := request.requesterPersonId
  spaceId := spaceId
  startAt := request.startAt
  endAt := request.endAt
  attendeeCount := request.attendeeCount

def bulkOutcome (db : RulesDb) (now : Int) (request : BulkRequest) (spaceIds : List String)
    (requester : RequesterContext) (spaceId : String) : Except ResolveError ResolveOutcome :=
  match loadSpacesWithAncestors db spaceIds spaceId with
  | none => .ok emptyOutcome
  | some space =>
      evaluateAndAggregate now db.helpers (filterRulesForSpace (fetchAllRules db) space)
        (assembleContext now requester (loadPermissionMap db requester.userId) space
          (request.scenario spaceId))

/-- `resolveBulk`: the entries of its map. -/
def resolveBulk (db : RulesDb) (now : Int) (request : BulkRequest) (spaceIds : List String) :
    Except ResolveError (List (String × ResolveOutcome)) :=
  if spaceIds.isEmpty then .ok []
  else match loadRequesterContext db request.requesterPersonId with
    | .error e => .error e
    | .ok requester => spaceIds.mapM fun spaceId =>
        (bulkOutcome db now request spaceIds requester spaceId).map fun outcome => (spaceId, outcome)

end Prequest.Rules
