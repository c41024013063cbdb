import Mathlib
import Prequest.Lib.Segments

/-!
# Keys of commands

A command is recorded under a key that the client and the server build in the
same way: a prefix for the kind of the command, then the ids that it is about,
with colons between them. Two commands with one key count as one. The ids of new rows
are uuids of 128 bits, digests of a name and a namespace.

* `key_eq_iff`: keys of ids without a colon are equal only for equal calls, or for
  digests that collide.
-/

namespace Prequest.Shared

open Prequest.Lib

/-! ## The builders -/

def patchIdempotencyKeyPrefix : String := "patch"

inductive PatchEntityKind where
  | case
  | workOrder
  deriving DecidableEq, Repr

def PatchEntityKind.text : PatchEntityKind → String
  | .case => "case"
  | .workOrder => "work_order"

def buildPatchIdempotencyKey (kind : PatchEntityKind) (entityId clientRequestId : String) :
    String :=
  patchIdempotencyKeyPrefix ++ ":" ++ kind.text ++ ":" ++ entityId ++ ":" ++ clientRequestId

def dispatchIdempotencyKeyPrefix : String := "dispatch"

def dispatchBatchIdempotencyKeyPrefix : String := "dispatch_batch"

def buildDispatchIdempotencyKey (parentId clientRequestId : String) : String :=
  dispatchIdempotencyKeyPrefix ++ ":" ++ parentId ++ ":" ++ clientRequestId

def buildDispatchBatchIdempotencyKey (parentId clientRequestId : String) : String :=
  dispatchBatchIdempotencyKeyPrefix ++ ":" ++ parentId ++ ":" ++ clientRequestId

def dispatchChildIdNamespace : String := "a3f4b21e-7c5d-4e6f-9a8b-1c2d3e4f5061"

/-- The 32 hexadecimal digits of a uuid. -/
def uuidDigits (uuid : BitVec 128) : List Char :=
  (List.range 32).map fun i => Nat.digitChar (uuid.toNat / 16 ^ (31 - i) % 16)

def uuidText (uuid : BitVec 128) : String :=
  let digits := uuidDigits uuid
  String.ofList (digits.take 8 ++ ['-'] ++ (digits.drop 8).take 4 ++ ['-'] ++
    (digits.drop 12).take 4 ++ ['-'] ++ (digits.drop 16).take 4 ++ ['-'] ++ digits.drop 20)

/-- `uuidv5` of a name and a namespace. `digest` is SHA-1, cut to the length of a uuid. -/
def uuidv5 (digest : String × String → BitVec 128) (hashed : String × String) : String :=
  uuidText (digest hashed)

def buildDispatchChildId (digest : String × String → BitVec 128) (idempotencyKey : String) :
    String :=
  uuidv5 digest (idempotencyKey, dispatchChildIdNamespace)

def workflowAssignmentIdempotencyKeyPrefix : String := "workflow:assignment"

def workflowUpdateTicketIdempotencyKeyPrefix : String := "workflow:update_ticket"

def buildWorkflowAssignmentIdempotencyKey (workflowInstanceId nodeId entityId : String) : String :=
  workflowAssignmentIdempotencyKeyPrefix ++ ":" ++ workflowInstanceId ++ ":" ++ nodeId ++ ":" ++
    entityId

def buildWorkflowUpdateTicketIdempotencyKey (workflowInstanceId nodeId entityId : String) :
    String :=
  workflowUpdateTicketIdempotencyKeyPrefix ++ ":" ++ workflowInstanceId ++ ":" ++ nodeId ++ ":" ++
    entityId

def createTicketIdempotencyKeyPrefix : String := "create:ticket"

def buildCreateTicketIdempotencyKey (actorAuthUid clientRequestId : String) : String :=
  createTicketIdempotencyKeyPrefix ++ ":" ++ actorAuthUid ++ ":" ++ clientRequestId

def createTicketIdNamespace : String := "4f6e1c92-8a3b-4d2e-9f5c-1a8b7c6d5e3f"

def buildCreateTicketId (digest : String × String → BitVec 128) (idempotencyKey : String) :
    String :=
  uuidv5 digest (idempotencyKey, createTicketIdNamespace)

def reclassifyIdempotencyKeyPrefix : String := "reclassify"

def buildReclassifyIdempotencyKey (ticketId clientRequestId : String) : String :=
  reclassifyIdempotencyKeyPrefix ++ ":" ++ ticketId ++ ":" ++ clientRequestId

def approvalGrantIdempotencyKeyPrefix : String := "approval:grant"

def buildApprovalGrantIdempotencyKey (approvalId clientRequestId : String) : String :=
  approvalGrantIdempotencyKeyPrefix ++ ":" ++ approvalId ++ ":" ++ clientRequestId

def editBookingIdempotencyKeyPrefix : String := "booking:edit"

inductive EditBookingOp where
  | one
  | slot
  | scope
  deriving DecidableEq, Repr

def EditBookingOp.text : EditBookingOp → String
  | .one => "one"
  | .slot => "slot"
  | .scope => "scope"

/-- A call without `op` builds the legacy key. -/
def buildEditBookingIdempotencyKey (bookingId clientRequestId : String)
    (op : Option EditBookingOp) : String :=
  match op with
  | some op =>
      editBookingIdempotencyKeyPrefix ++ ":" ++ op.text ++ ":" ++ bookingId ++ ":" ++
        clientRequestId
  | none => editBookingIdempotencyKeyPrefix ++ ":" ++ bookingId ++ ":" ++ clientRequestId

def cancelBookingIdempotencyKeyPrefix : String := "booking:cancel"

inductive RecurrenceCancelScope where
  | this
  | thisAndFollowing
  | series
  deriving DecidableEq, Repr

def RecurrenceCancelScope.text : RecurrenceCancelScope → String
  | .this => "this"
  | .thisAndFollowing => "this_and_following"
  | .series => "series"

def buildCancelBookingIdempotencyKey (bookingId clientRequestId : String)
    (scope : RecurrenceCancelScope) : String :=
  cancelBookingIdempotencyKeyPrefix ++ ":" ++ scope.text ++ ":" ++ bookingId ++ ":" ++
    clientRequestId

def splitRecurrenceSeriesIdempotencyKeyPrefix : String := "booking:recurrence:split"

def buildSplitSeriesIdempotencyKey (bookingId clientRequestId : String) : String :=
  splitRecurrenceSeriesIdempotencyKeyPrefix ++ ":" ++ bookingId ++ ":" ++ clientRequestId

def attachServicesIdempotencyKeyPrefix : String := "booking:attach"

def buildAttachServicesIdempotencyKey (bookingId clientRequestId : String) : String :=
  attachServicesIdempotencyKeyPrefix ++ ":" ++ bookingId ++ ":" ++ clientRequestId

def cancelOrderLinesIdempotencyKeyPrefix : String := "booking:lines:cancel"

def buildCancelOrderLinesIdempotencyKey (bookingId clientRequestId : String) : String :=
  cancelOrderLinesIdempotencyKeyPrefix ++ ":" ++ bookingId ++ ":" ++ clientRequestId

def reassignIdempotencyKeyPrefix : String := "reassign"

inductive ReassignEntityKind where
  | case
  | workOrder
  deriving DecidableEq, Repr

def ReassignEntityKind.text : ReassignEntityKind → String
  | .case => "case"
  | .workOrder => "work_order"

def buildReassignIdempotencyKey (kind : ReassignEntityKind) (entityId clientRequestId : String) :
    String :=
  reassignIdempotencyKeyPrefix ++ ":" ++ kind.text ++ ":" ++ entityId ++ ":" ++ clientRequestId

def slaEscalationIdempotencyKeyPrefix : String := "sla:escalation"

def buildSlaEscalationIdempotencyKey {Number : Type} (print : Number → String)
    (slaTimerId : String) (atPercent : Number) (timerType : String) : String :=
  slaEscalationIdempotencyKeyPrefix ++ ":" ++ slaTimerId ++ ":" ++ print atPercent ++ ":" ++
    timerType

/-! ## Calls -/

/-- A call of one of the builders. -/
inductive Invocation (Number : Type) where
  | patch (kind : PatchEntityKind) (entityId clientRequestId : String)
  | dispatch (parentId clientRequestId : String)
  | dispatchBatch (parentId clientRequestId : String)
  | dispatchChildId (idempotencyKey : String)
  | workflowAssignment (workflowInstanceId nodeId entityId : String)
  | workflowUpdateTicket (workflowInstanceId nodeId entityId : String)
  | createTicket (actorAuthUid clientRequestId : String)
  | createTicketId (idempotencyKey : String)
  | reclassify (ticketId clientRequestId : String)
  | approvalGrant (approvalId clientRequestId : String)
  | editBookingLegacy (bookingId clientRequestId : String)
  | editBooking (bookingId clientRequestId : String) (op : EditBookingOp)
  | cancelBooking (bookingId clientRequestId : String) (scope : RecurrenceCancelScope)
  | splitSeries (bookingId clientRequestId : String)
  | attachServices (bookingId clientRequestId : String)
  | cancelOrderLines (bookingId clientRequestId : String)
  | reassign (kind : ReassignEntityKind) (entityId clientRequestId : String)
  | slaEscalation (slaTimerId : String) (atPercent : Number) (timerType : String)

namespace Invocation

variable {Number : Type} (digest : String × String → BitVec 128) (number : Printer ':' Number)

def key : Invocation Number → String
  | patch kind entityId clientRequestId => buildPatchIdempotencyKey kind entityId clientRequestId
  | dispatch parentId clientRequestId => buildDispatchIdempotencyKey parentId clientRequestId
  | dispatchBatch parentId clientRequestId =>
      buildDispatchBatchIdempotencyKey parentId clientRequestId
  | dispatchChildId idempotencyKey => buildDispatchChildId digest idempotencyKey
  | workflowAssignment workflowInstanceId nodeId entityId =>
      buildWorkflowAssignmentIdempotencyKey workflowInstanceId nodeId entityId
  | workflowUpdateTicket workflowInstanceId nodeId entityId =>
      buildWorkflowUpdateTicketIdempotencyKey workflowInstanceId nodeId entityId
  | createTicket actorAuthUid clientRequestId =>
      buildCreateTicketIdempotencyKey actorAuthUid clientRequestId
  | createTicketId idempotencyKey => buildCreateTicketId digest idempotencyKey
  | reclassify ticketId clientRequestId => buildReclassifyIdempotencyKey ticketId clientRequestId
  | approvalGrant approvalId clientRequestId =>
      buildApprovalGrantIdempotencyKey approvalId clientRequestId
  | editBookingLegacy bookingId clientRequestId =>
      buildEditBookingIdempotencyKey bookingId clientRequestId none
  | editBooking bookingId clientRequestId op =>
      buildEditBookingIdempotencyKey bookingId clientRequestId (some op)
  | cancelBooking bookingId clientRequestId scope =>
      buildCancelBookingIdempotencyKey bookingId clientRequestId scope
  | splitSeries bookingId clientRequestId =>
      buildSplitSeriesIdempotencyKey bookingId clientRequestId
  | attachServices bookingId clientRequestId =>
      buildAttachServicesIdempotencyKey bookingId clientRequestId
  | cancelOrderLines bookingId clientRequestId =>
      buildCancelOrderLinesIdempotencyKey bookingId clientRequestId
  | reassign kind entityId clientRequestId =>
      buildReassignIdempotencyKey kind entityId clientRequestId
  | slaEscalation slaTimerId atPercent timerType =>
      buildSlaEscalationIdempotencyKey number.text slaTimerId atPercent timerType

/-- The texts that a call puts into its key as they are. A uuid is made of a whole text. -/
def identifiers : Invocation Number → List String
  | patch _ entityId clientRequestId | reassign _ entityId clientRequestId =>
      [entityId, clientRequestId]
  | dispatch a b | dispatchBatch a b | createTicket a b | reclassify a b | approvalGrant a b
  | editBookingLegacy a b | editBooking a b _ | cancelBooking a b _ | splitSeries a b | attachServices a b
  | cancelOrderLines a b => [a, b]
  | workflowAssignment a b c | workflowUpdateTicket a b c => [a, b, c]
  | slaEscalation slaTimerId _ timerType => [slaTimerId, timerType]
  | dispatchChildId _ | createTicketId _ => []

def ColonFree (a : Invocation Number) : Prop := ∀ s ∈ a.identifiers, ':' ∉ s.toList

instance (a : Invocation Number) : Decidable a.ColonFree :=
  inferInstanceAs (Decidable (∀ s ∈ a.identifiers, ':' ∉ s.toList))

/-- What stands after the prefix of the key. -/
def arguments : Invocation Number → List String
  | patch kind entityId clientRequestId => [kind.text, entityId, clientRequestId]
  | reassign kind entityId clientRequestId => [kind.text, entityId, clientRequestId]
  | dispatch a b | dispatchBatch a b | createTicket a b | reclassify a b | approvalGrant a b
  | editBookingLegacy a b | splitSeries a b | attachServices a b | cancelOrderLines a b => [a, b]
  | workflowAssignment a b c | workflowUpdateTicket a b c => [a, b, c]
  | editBooking bookingId clientRequestId op => [op.text, bookingId, clientRequestId]
  | cancelBooking bookingId clientRequestId scope => [scope.text, bookingId, clientRequestId]
  | slaEscalation slaTimerId atPercent timerType => [slaTimerId, number.text atPercent, timerType]
  | dispatchChildId idempotencyKey => [uuidv5 digest (idempotencyKey, dispatchChildIdNamespace)]
  | createTicketId idempotencyKey => [uuidv5 digest (idempotencyKey, createTicketIdNamespace)]

/-- What a call hashes, when its key is a uuid. -/
def hashed : Invocation Number → Option (String × String)
  | dispatchChildId idempotencyKey => some (idempotencyKey, dispatchChildIdNamespace)
  | createTicketId idempotencyKey => some (idempotencyKey, createTicketIdNamespace)
  | _ => none

end Invocation

/-! ## Prefixes -/

inductive Format where
  | patch
  | dispatch
  | dispatchBatch
  | uuid
  | workflowAssignment
  | workflowUpdateTicket
  | createTicket
  | reclassify
  | approvalGrant
  | editBookingLegacy
  | editBooking
  | cancelBooking
  | splitSeries
  | attachServices
  | cancelOrderLines
  | reassign
  | slaEscalation
  deriving DecidableEq

namespace Format

def all : List Format :=
  [patch, dispatch, dispatchBatch, uuid, workflowAssignment, workflowUpdateTicket, createTicket,
    reclassify, approvalGrant, editBookingLegacy, editBooking, cancelBooking, splitSeries,
    attachServices, cancelOrderLines, reassign, slaEscalation]

theorem mem_all (f : Format) : f ∈ all := by cases f <;> decide

/-- The segments of the prefix. -/
def header : Format → List String
  | patch => ["patch"]
  | dispatch => ["dispatch"]
  | dispatchBatch => ["dispatch_batch"]
  | uuid => []
  | workflowAssignment => ["workflow", "assignment"]
  | workflowUpdateTicket => ["workflow", "update_ticket"]
  | createTicket => ["create", "ticket"]
  | reclassify => ["reclassify"]
  | approvalGrant => ["approval", "grant"]
  | editBookingLegacy | editBooking => ["booking", "edit"]
  | cancelBooking => ["booking", "cancel"]
  | splitSeries => ["booking", "recurrence", "split"]
  | attachServices => ["booking", "attach"]
  | cancelOrderLines => ["booking", "lines", "cancel"]
  | reassign => ["reassign"]
  | slaEscalation => ["sla", "escalation"]

/-- The number of segments after the prefix. -/
def size : Format → Nat
  | uuid => 1
  | dispatch | dispatchBatch | createTicket | reclassify | approvalGrant | editBookingLegacy
  | splitSeries | attachServices | cancelOrderLines => 2
  | patch | workflowAssignment | workflowUpdateTicket | editBooking | cancelBooking | reassign
  | slaEscalation => 3

theorem header_apart {f g : Format} (hbegins : f.header <+: g.header)
    (hlength : f.header.length + f.size = g.header.length + g.size) : f = g := by
  have hall : ∀ f ∈ all, ∀ g ∈ all, f.header <+: g.header →
      f.header.length + f.size = g.header.length + g.size → f = g := by
    decide +kernel
  exact hall f (mem_all f) g (mem_all g) hbegins hlength

end Format

namespace Invocation

variable {Number : Type} {digest : String × String → BitVec 128} {number : Printer ':' Number}
  {a b : Invocation Number}

def format : Invocation Number → Format
  | patch .. => .patch
  | dispatch .. => .dispatch
  | dispatchBatch .. => .dispatchBatch
  | dispatchChildId .. | createTicketId .. => .uuid
  | workflowAssignment .. => .workflowAssignment
  | workflowUpdateTicket .. => .workflowUpdateTicket
  | createTicket .. => .createTicket
  | reclassify .. => .reclassify
  | approvalGrant .. => .approvalGrant
  | editBookingLegacy .. => .editBookingLegacy
  | editBooking .. => .editBooking
  | cancelBooking .. => .cancelBooking
  | splitSeries .. => .splitSeries
  | attachServices .. => .attachServices
  | cancelOrderLines .. => .cancelOrderLines
  | reassign .. => .reassign
  | slaEscalation .. => .slaEscalation

theorem length_arguments (a : Invocation Number) :
    (a.arguments digest number).length = a.format.size := by
  cases a <;> rfl

/-! ## Segments of keys -/

variable {x : String} {n : String × String}

theorem segments_argument (s : String) (hx : ':' ∉ x.toList) :
    segments ':' (s ++ ":" ++ x) = segments ':' s ++ [x] :=
  segments_append_of_notMem s hx

theorem segments_two (s : String) {y : String} (hx : ':' ∉ x.toList) (hy : ':' ∉ y.toList) :
    segments ':' (s ++ ":" ++ x ++ ":" ++ y) = segments ':' s ++ [x, y] := by
  rw [segments_argument _ hy, segments_argument _ hx, List.append_assoc]
  rfl

theorem segments_three (s : String) {y z : String} (hx : ':' ∉ x.toList)
    (hy : ':' ∉ y.toList) (hz : ':' ∉ z.toList) :
    segments ':' (s ++ ":" ++ x ++ ":" ++ y ++ ":" ++ z) = segments ':' s ++ [x, y, z] := by
  rw [segments_argument _ hz, segments_two _ hx hy, List.append_assoc]
  rfl

theorem forall_mem_pair {y : String} (h : ∀ s ∈ [x, y], ':' ∉ s.toList) :
    ':' ∉ x.toList ∧ ':' ∉ y.toList :=
  ⟨h x List.mem_cons_self, h y (List.mem_cons_of_mem _ List.mem_cons_self)⟩

theorem colon_notMem_uuidText (uuid : BitVec 128) : ':' ∉ (uuidText uuid).toList := by
  have hdigit : ∀ n < 16, ':' ≠ Nat.digitChar n := by decide
  have hdigits : ':' ∉ uuidDigits uuid := by
    intro h
    obtain ⟨i, _, hi⟩ := List.mem_map.mp h
    exact hdigit _ (Nat.mod_lt _ (by decide)) hi.symm
  have hdash : ':' ∉ ['-'] := by decide
  have htake : ∀ n m, ':' ∉ ((uuidDigits uuid).drop n).take m := fun n m h =>
    hdigits (List.mem_of_mem_drop (List.mem_of_mem_take h))
  have hlast : ':' ∉ (uuidDigits uuid).drop 20 := fun h => hdigits (List.mem_of_mem_drop h)
  rw [uuidText, String.toList_ofList]
  simp only [List.mem_append, not_or]
  exact ⟨⟨⟨⟨⟨⟨⟨⟨htake 0 8, hdash⟩, htake 8 4⟩, hdash⟩, htake 12 4⟩, hdash⟩, htake 16 4⟩, hdash⟩, hlast⟩

theorem segments_key (h : a.ColonFree) :
    segments ':' (a.key digest number) = a.format.header ++ a.arguments digest number := by
  cases a with
  | patch kind entityId clientRequestId =>
    obtain ⟨hentity, hrequest⟩ := forall_mem_pair h
    exact segments_three _ (by cases kind <;> decide) hentity hrequest
  | reassign kind entityId clientRequestId =>
    obtain ⟨hentity, hrequest⟩ := forall_mem_pair h
    exact segments_three _ (by cases kind <;> decide) hentity hrequest
  | editBooking bookingId clientRequestId op =>
    obtain ⟨hbooking, hrequest⟩ := forall_mem_pair h
    exact segments_three _ (by cases op <;> decide) hbooking hrequest
  | cancelBooking bookingId clientRequestId scope =>
    obtain ⟨hbooking, hrequest⟩ := forall_mem_pair h
    exact segments_three _ (by cases scope <;> decide) hbooking hrequest
  | slaEscalation slaTimerId atPercent timerType =>
    obtain ⟨htimer, htype⟩ := forall_mem_pair h
    exact segments_three _ htimer (number.notMem atPercent) htype
  | workflowAssignment workflowInstanceId nodeId entityId
  | workflowUpdateTicket workflowInstanceId nodeId entityId =>
    obtain ⟨hinstance, hrest⟩ := List.forall_mem_cons.mp h
    obtain ⟨hnode, hentity⟩ := forall_mem_pair hrest
    exact segments_three _ hinstance hnode hentity
  | dispatchChildId idempotencyKey | createTicketId idempotencyKey =>
    exact segments_of_notMem (colon_notMem_uuidText _)
  | dispatch about request | dispatchBatch about request | createTicket about request
  | reclassify about request | approvalGrant about request | editBookingLegacy about request
  | splitSeries about request | attachServices about request | cancelOrderLines about request =>
    obtain ⟨habout, hrequest⟩ := forall_mem_pair h
    exact segments_two _ habout hrequest

theorem patchKind_inj {k k' : PatchEntityKind} : k.text = k'.text ↔ k = k' := by
  cases k <;> cases k' <;> decide

theorem reassignKind_inj {k k' : ReassignEntityKind} : k.text = k'.text ↔ k = k' := by
  cases k <;> cases k' <;> decide

theorem op_inj {op op' : EditBookingOp} : op.text = op'.text ↔ op = op' := by
  cases op <;> cases op' <;> decide

theorem scope_inj {s s' : RecurrenceCancelScope} : s.text = s'.text ↔ s = s' := by
  cases s <;> cases s' <;> decide

theorem namespaces_apart : dispatchChildIdNamespace ≠ createTicketIdNamespace := by decide

theorem key_of_hashed (h : a.hashed = some n) : a.key digest number = uuidv5 digest n := by
  cases a <;> cases h <;> rfl

/-- The namespaces tell a child from a ticket, and the names two of a kind. -/
theorem eq_of_hashed_eq (ha : a.hashed = some n) (hb : b.hashed = some n) : a = b := by
  cases a with
  | dispatchChildId name =>
    cases ha
    cases b with
    | dispatchChildId name' =>
      cases hb
      rfl
    | createTicketId name' =>
      exact absurd (congrArg Prod.snd (Option.some.inj hb)).symm namespaces_apart
    | _ => cases hb
  | createTicketId name =>
    cases ha
    cases b with
    | dispatchChildId name' => exact absurd (congrArg Prod.snd (Option.some.inj hb)) namespaces_apart
    | createTicketId name' =>
      cases hb
      rfl
    | _ => cases hb
  | _ => cases ha

theorem eq_or_hashed_of_arguments_eq (hformat : a.format = b.format)
    (harguments : a.arguments digest number = b.arguments digest number) :
    a = b ∨ ∃ n n', a.hashed = some n ∧ b.hashed = some n' ∧ uuidv5 digest n = uuidv5 digest n' := by
  cases a <;> cases b <;> cases hformat
  case dispatchChildId.dispatchChildId | dispatchChildId.createTicketId
      | createTicketId.dispatchChildId | createTicketId.createTicketId =>
    exact .inr ⟨_, _, rfl, rfl, List.singleton_inj.mp harguments⟩
  all_goals
    left
    simpa [arguments, patchKind_inj, reassignKind_inj, op_inj, scope_inj, Printer.text_inj,
      and_left_comm, and_comm, and_assoc] using harguments

/-- Keys of calls whose ids hold no colon are equal only when the calls are, or when both are uuids
whose digests collide. Different calls for a uuid hash different texts. -/
theorem key_eq_iff (digest : String × String → BitVec 128) (number : Printer ':' Number)
    (ha : a.ColonFree) (hb : b.ColonFree) :
    (a.key digest number = b.key digest number ↔ a = b ∨
      ∃ n n', a.hashed = some n ∧ b.hashed = some n' ∧ uuidv5 digest n = uuidv5 digest n') ∧
    ∀ n, a.hashed = some n → b.hashed = some n → a = b := by
  refine ⟨⟨fun hkey => ?_, ?_⟩, fun n => eq_of_hashed_eq⟩
  · have hsegments : a.format.header ++ a.arguments digest number =
        b.format.header ++ b.arguments digest number := by
      rw [← segments_key ha, ← segments_key hb, hkey]
    have hlength := congrArg List.length hsegments
    rw [List.length_append, List.length_append, length_arguments, length_arguments] at hlength
    have hformat : a.format = b.format := by
      have hb := List.prefix_append b.format.header (b.arguments digest number)
      rw [← hsegments] at hb
      rcases List.prefix_or_prefix_of_prefix (List.prefix_append _ _) hb with h | h
      · exact Format.header_apart h hlength
      · exact (Format.header_apart h hlength.symm).symm
    rw [hformat] at hsegments
    exact eq_or_hashed_of_arguments_eq hformat (List.append_cancel_left hsegments)
  · rintro (rfl | ⟨n, n', hn, hn', huuid⟩)
    · rfl
    · rw [key_of_hashed hn, key_of_hashed hn', huuid]

/-! ## A case -/

theorem colon_notMem_repr (n : Nat) : ':' ∉ n.repr.toList := by
  intro h
  rw [Nat.toList_repr] at h
  exact absurd (Nat.isDigit_of_mem_toDigits (by decide) (by decide) h) (by decide)

/-- Natural numbers in decimal digits. -/
def natPrinter : Printer ':' Nat where
  text := Nat.repr
  injective := fun _ _ => Nat.repr_injective
  notMem := colon_notMem_repr

/-- Whatever the digest is, it has fewer values than there are names, so two children of different
keys get one id. -/
theorem childIds_collide : ¬∃ digest : String × String → BitVec 128, ∀ a b : Invocation Nat,
    a.ColonFree → b.ColonFree → a.key digest natPrinter = b.key digest natPrinter → a = b := by
  rintro ⟨digest, hlaw⟩
  let name (n : Nat) : String := String.ofList (List.replicate n 'a')
  have hfree : ∀ n, (dispatchChildId (name n) : Invocation Nat).ColonFree :=
    fun _ _ h => absurd h List.not_mem_nil
  obtain ⟨n, m, hne, hdigest⟩ := Finite.exists_ne_map_eq_of_infinite fun n =>
    digest (name n, dispatchChildIdNamespace)
  have hcalls := hlaw (dispatchChildId (name n)) (dispatchChildId (name m)) (hfree n) (hfree m)
    (congrArg uuidText hdigest)
  have hlength := congrArg (fun s : String => s.toList.length) (dispatchChildId.inj hcalls)
  simp only [name, String.toList_ofList, List.length_replicate] at hlength
  exact hne hlength

/-- The ids of one edit, by slot and in the legacy form. -/
theorem key_eq_iff_edit :
    ((editBooking "b1" "r1" .slot).key (fun _ => 0) natPrinter =
        (editBookingLegacy "b1" "r1").key (fun _ => 0) natPrinter ↔
      (editBooking "b1" "r1" .slot : Invocation Nat) = editBookingLegacy "b1" "r1" ∨
        ∃ n n', (editBooking "b1" "r1" .slot : Invocation Nat).hashed = some n ∧
          (editBookingLegacy "b1" "r1" : Invocation Nat).hashed = some n' ∧
            uuidv5 (fun _ => 0) n = uuidv5 (fun _ => 0) n') ∧
    ∀ n, (editBooking "b1" "r1" .slot : Invocation Nat).hashed = some n →
      (editBookingLegacy "b1" "r1" : Invocation Nat).hashed = some n →
        (editBooking "b1" "r1" .slot : Invocation Nat) = editBookingLegacy "b1" "r1" :=
  key_eq_iff (fun _ => 0) natPrinter (by decide) (by decide)

end Invocation

end Prequest.Shared
