import Mathlib.Data.List.Basic
import Prequest.Lib.Run
import Prequest.Workflow.WaitLink

/-!
# Three resolvers of one link

The wake handler, the sweeper and the cancel cascade work on the links at the
same time, each in steps of one query. A resolver first selects a link, then
claims it by an `UPDATE` that asks for an unresolved row, then resumes the
parent by an `UPDATE` that asks for a waiting instance, and takes its claim back
when it could not resume. Any number of them run, and the events are delivered
any number of times.
-/

namespace Prequest.Workflow

open Lib

/-! ## The interleaving -/

/-- Who comes to claim a link. -/
inductive Resolver where
  | wake (event : BookingEvent)
  | sweep
  deriving DecidableEq, Repr

/-- Why a link was resolved, and when. -/
inductive Cause where
  | event (event : BookingEvent) (now : Nat)
  | timeout (now : Nat)
  | parentCancelled (now : Nat)
  deriving DecidableEq, Repr

def Cause.kind : Cause → ResolutionKind
  | .event _ _ => .conditionMet
  | .timeout _ => .timeout
  | .parentCancelled _ => .parentCancelled

/-- Where a process stands between two queries. -/
inductive Worker where
  | idle
  /-- It has read the link and not claimed it yet. -/
  | selected (resolver : Resolver) (link : LinkRow)
  /-- It has claimed the link and not resumed the parent yet. -/
  | claimed (resolver : Resolver) (link : LinkRow)
  /-- `resume` has claimed the instance; the chain runs, on account of a link or of a call. -/
  | advancing (link : Option LinkRow) (instanceId : Nat)
  /-- It could not resume, and is about to take its claim back. -/
  | failing (link : LinkRow)
  /-- It has cancelled the instance and goes through its links. -/
  | cancelling (instanceId : Nat)
  deriving DecidableEq, Repr

/-- What the world remembers. -/
inductive Entry where
  | resolved (row : LinkRow) (worker : Nat) (cause : Cause)
  | resumed (linkId : Nat)
  | failed (linkId worker : Nat)
  | reopened (linkId worker : Nat)
  deriving DecidableEq, Repr

structure RaceWorld where
  links : Table LinkRow
  /-- `workflow_instances.status`. -/
  status : Nat → Option InstanceStatus
  worker : Nat → Worker := fun _ => .idle
  log : List Entry := []

inductive Action where
  | select (worker : Nat) (resolver : Resolver) (linkId now : Nat)
  | claim (worker now : Nat)
  /-- The parent cannot be read. -/
  | unread (worker : Nat)
  | resume (worker : Nat)
  /-- A call of `resume` by an approval or by hand. -/
  | call (worker instanceId : Nat)
  /-- The chain returns, with the write of its last node if this is not lost. -/
  | return' (worker : Nat) (write : Option InstanceStatus)
  | throw' (worker : Nat)
  | unclaim (worker : Nat)
  | cancel (worker instanceId : Nat)
  | resolve (worker linkId now : Nat)
  /-- The worker is done, or its process stops. -/
  | stop (worker : Nat)
  deriving DecidableEq, Repr

namespace RaceWorld

variable (s : RaceWorld)

def setWorker (i : Nat) (w : Worker) : RaceWorld :=
  { s with worker := fun j => if j = i then w else s.worker j }

def setStatus (instanceId : Nat) (status : InstanceStatus) : RaceWorld :=
  { s with status := fun p => if p = instanceId then (s.status p).map fun _ => status else s.status p }

def append (e : Entry) : RaceWorld := { s with log := s.log ++ [e] }

end RaceWorld

/-- The filter of the `SELECT` of a resolver. -/
def Resolver.selects : Resolver → Nat → LinkRow → Bool
  | .wake event, now, link => isWakeCandidate event now link
  | .sweep, now, link => isSweepCandidate now link

/-- The `WHERE` of the claim of a resolver. -/
def Resolver.claims : Resolver → Nat → Nat → LinkRow → Bool
  | .wake _, linkId, now, link => isWakeClaimable linkId now link
  | .sweep, linkId, now, link => isTimeoutClaimable linkId now link

def Resolver.claim : Resolver → Table LinkRow → Nat → Nat → Table LinkRow
  | .wake _, links, linkId, now => claimForWake links linkId now
  | .sweep, links, linkId, now => claimForTimeout links linkId now

def Resolver.cause : Resolver → Nat → Cause
  | .wake event, now => .event event now
  | .sweep, now => .timeout now

def Resolver.resumes : Resolver → LinkRow → Bool
  | .wake _, _ => true
  | .sweep, link => link.onTimeoutBranch.isSome

def RaceWorld.step (s : RaceWorld) : Action → RaceWorld
  | .select i resolver linkId now =>
      match s.worker i, s.links.get? linkId with
      | .idle, some link =>
          if resolver.selects now link then s.setWorker i (.selected resolver link) else s
      | _, _ => s
  | .claim i now =>
      match s.worker i with
      | .selected resolver link =>
          match s.links.get? link.id with
          | some row =>
              if resolver.claims link.id now row then
                ({ s with links := resolver.claim s.links link.id now }.setWorker i
                  (.claimed resolver link)).append (.resolved row i (resolver.cause now))
              else s.setWorker i .idle
          | none => s.setWorker i .idle
      | _ => s
  | .unread i =>
      match s.worker i with
      | .claimed _ link => (s.setWorker i (.failing link)).append (.failed link.id i)
      | _ => s
  | .resume i =>
      match s.worker i with
      | .claimed resolver link =>
          if resolver.resumes link ∧ s.status link.parentInstanceId = some .waiting then
            ((s.setStatus link.parentInstanceId .active).setWorker i
              (.advancing (some link) link.parentInstanceId)).append (.resumed link.id)
          else s.setWorker i .idle
      | _ => s
  | .call i instanceId =>
      match s.worker i with
      | .idle =>
          if s.status instanceId = some .waiting then
            (s.setStatus instanceId .active).setWorker i (.advancing none instanceId)
          else s
      | _ => s
  | .return' i write =>
      match s.worker i with
      | .advancing _ instanceId =>
          match write with
          | some status => (s.setStatus instanceId status).setWorker i .idle
          | none => s.setWorker i .idle
      | _ => s
  | .throw' i =>
      match s.worker i with
      | .advancing (some link) _ => (s.setWorker i (.failing link)).append (.failed link.id i)
      | .advancing none _ => s.setWorker i .idle
      | _ => s
  | .unclaim i =>
      match s.worker i with
      | .failing link =>
          ({ s with links := Workflow.unclaim s.links link.id }.setWorker i .idle).append
            (.reopened link.id i)
      | _ => s
  | .cancel i instanceId =>
      match s.worker i with
      | .idle =>
          if s.status instanceId = some .active ∨ s.status instanceId = some .waiting then
            (s.setStatus instanceId .cancelled).setWorker i (.cancelling instanceId)
          else s
      | _ => s
  | .resolve i linkId now =>
      match s.worker i, s.links.get? linkId with
      | .cancelling instanceId, some row =>
          if row.parentInstanceId = instanceId ∧ row.resolvedAt = none then
            { s with links := resolveLinkRow s.links linkId now }.append
              (.resolved row i (.parentCancelled now))
          else s
      | _, _ => s
  | .stop i => s.setWorker i .idle

/-! ## The law -/

/-- Who has resolved a link, as what, and whether it has failed since. -/
structure Holder where
  worker : Nat
  kind : ResolutionKind
  failed : Bool
  deriving DecidableEq, Repr

def Entry.apply (linkId : Nat) (holder : Option Holder) : Entry → Option Holder
  | .resolved row i cause => if row.id = linkId then some ⟨i, cause.kind, false⟩ else holder
  | .resumed _ => holder
  | .failed id _ => if id = linkId then holder.map fun h => { h with failed := true } else holder
  | .reopened id _ => if id = linkId then none else holder

def holderOf (linkId : Nat) (log : List Entry) : Option Holder := run (Entry.apply linkId) none log

def LinkRow.IsExpired (row : LinkRow) (now : Nat) : Prop := row.waitTimeoutAt.any (· ≤ now) = true

def Cause.IsRight (row : LinkRow) : Cause → Prop
  | .event e now =>
      ¬row.IsExpired now ∧
        ∀ statuses, row.entityTerminalStatuses = some statuses → statuses ≠ [] →
          ∃ status ∈ statuses, e.newStatus = some status
  | .timeout now => row.IsExpired now
  | .parentCancelled _ => True

structure ResolvedOnce (s : RaceWorld) : Prop where
  /-- A link is resolved only when nobody has it. -/
  once : ∀ before row i cause after, s.log = before ++ .resolved row i cause :: after →
    holderOf row.id before = none
  /-- Only the worker that has a link lets it go, after it has failed to resume the parent. -/
  takenBack : ∀ before linkId i after, s.log = before ++ .reopened linkId i :: after →
    ∃ h, holderOf linkId before = some h ∧ h.worker = i ∧ h.failed = true
  /-- On account of a link its parent is resumed at most once. -/
  advancedOnce : ∀ linkId, s.log.count (.resumed linkId) ≤ 1
  cause : ∀ row i cause, .resolved row i cause ∈ s.log → cause.IsRight row
  /-- The row of a link that somebody has is resolved, as what the log says. -/
  row : ∀ row ∈ s.links.rows, ∀ h, holderOf row.id s.log = some h →
    row.resolvedAt.isSome = true ∧ row.resolutionKind = some h.kind

def RaceWorld.start (links : Table LinkRow) (status : Nat → Option InstanceStatus) : RaceWorld where
  links := links
  status := status

/-- A link is resolved for good by the one that resolves it first. -/
def ResolvedByOne (s : RaceWorld) : Prop :=
  ∀ row row' i j cause cause', .resolved row i cause ∈ s.log → .resolved row' j cause' ∈ s.log →
    row.id = row'.id → i = j

end Prequest.Workflow
