import Prequest.Cases.TimerStart
import Prequest.Lib.ReadCommitted

/-!
# Cases and their work orders, statement by statement

Three triggers keep a case and the work orders under it consistent. The guard on
`work_orders` refuses an open work order under a settled case, the guard on
`tickets` refuses to settle a case with open work orders, and the rollup moves
the case along with its work orders. Each of them reads the other table in a
statement of its own; the first takes an advisory lock on the case, the other
two do not.

The share lock of the foreign key is left out, so that every schedule of the
database is among the schedules here.
-/

namespace Prequest.Cases

open Prequest.Lib Prequest.Lib.ReadCommitted Prequest.Sla

/-! ## Transactions -/

/-- A write of a transaction. A case is settled through `transition_entity_status`. -/
inductive CaseOp where
  | insertOrder (id : String) (parentTicketId : Option String) (columns : StatusColumns)
  /-- An update of `status_category`, of `parent_ticket_id`, or of both. -/
  | updateOrder (id : String) (statusCategory : Option String)
      (parentTicketId : Option (Option String))
  /-- To `closed`, or else to `resolved`. -/
  | settleCase (id : String) (closed : Bool)
  deriving DecidableEq, Repr

/-- `enforce_work_order_parent_open_invariant` checks the parent of the new row. -/
def checksParent (old : Option Entity) (new : Entity) : Option String :=
  if isTerminal new.columns.statusCategory then none
  else match old with
    | none => new.parentTicketId
    | some o =>
        if o.parentTicketId = new.parentTicketId ∧
            (o.columns.statusCategory = new.columns.statusCategory ∨
              isTerminal o.columns.statusCategory = false) then none
        else new.parentTicketId

/-- `rollup_parent_status_from_work_orders` acts on the parent of the new row. -/
def rollsUp (old : Option Entity) (new : Entity) : Option String :=
  match old with
  | none => new.parentTicketId
  | some o =>
      if o.columns.statusCategory = new.columns.statusCategory then none else new.parentTicketId

inductive CaseLock where
  | row (id : String)
  | advisory (parentTicketId : String)
  deriving DecidableEq, Repr

/-- Where a transaction is between two statements. -/
inductive Point where
  | ready
  /-- The row that an update has found is locked, and read again. -/
  | lockRow (op : CaseOp)
  /-- `transition_entity_status` counts the open children of the locked case. -/
  | countChildren (next : Entity)
  /-- `enforce_ticket_parent_close_invariant` counts them. -/
  | closeGuard (next : Entity)
  | writeCase (next : Entity)
  /-- `pg_advisory_xact_lock` on the parent. -/
  | advisory (parent : String) (old : Option Entity) (new : Entity)
  | parentGuard (parent : String) (old : Option Entity) (new : Entity)
  | writeOrder (old : Option Entity) (new : Entity)
  /-- The rollup reads the categories of the children. -/
  | readSiblings (parent : String)
  /-- The update of the rollup looks for the case. -/
  | rollParent (parent : String) (categories : List String)
  /-- The case is locked, and its `WHERE` asked again. -/
  | rollRow (parent : String) (categories : List String)
  deriving DecidableEq, Repr

/-- A control point: the operations that are left, and the rows written so far. -/
structure CasePc where
  todo : List CaseOp
  point : Point
  written : List Entity := []
  deriving DecidableEq, Repr

/-- The lock that a statement takes first. -/
def caseLock (pc : CasePc) : Option CaseLock :=
  match pc.point with
  | .lockRow (.updateOrder id _ _) => some (.row id)
  | .lockRow (.settleCase id _) => some (.row id)
  | .writeCase next => some (.row next.id)
  | .advisory parent _ _ => some (.advisory parent)
  | .writeOrder _ new => some (.row new.id)
  | .rollRow parent _ => some (.row parent)
  | _ => none

def writeEntity (e : Entity) (db : CaseTables) : CaseTables :=
  { db with entities := db.entities.write e }

/-- The rows that a transaction sees. -/
def writtenOver (written : List Entity) (db : CaseTables) : CaseTables :=
  { db with entities := Table.overlay written db.entities }

/-- A write of a work order begins with the guard, where this acts. -/
def guardPoint (old : Option Entity) (new : Entity) : Point :=
  match checksParent old new with
  | some parent => .advisory parent old new
  | none => .writeOrder old new

/-- The rollup follows the write of a work order, where it acts. -/
def rollupPoint (old : Option Entity) (new : Entity) : Point :=
  match rollsUp old new with
  | some parent => .readSiblings parent
  | none => .ready

/-- The statement writes nothing and goes on at a point. -/
def goTo (pc : CasePc) (point : Point) : Effect CaseTables CasePc :=
  .next { pc with point := point } id

def writeAt (pc : CasePc) (e : Entity) (point : Point) : Effect CaseTables CasePc :=
  .next { pc with point := point, written := e :: pc.written } (writeEntity e)

/-- The row after `UPDATE work_orders`. -/
def updatedOrder (old : Entity) (statusCategory : Option String)
    (parentTicketId : Option (Option String)) : Entity :=
  { old with
    columns :=
      { old.columns with statusCategory := statusCategory.getD old.columns.statusCategory }
    parentTicketId := parentTicketId.getD old.parentTicketId }

def settledCase (old : Entity) (closed : Bool) : Entity :=
  { old with
    columns := { old.columns with statusCategory := if closed then "closed" else "resolved" } }

/-- The first statement of an operation. An update looks for its row. -/
def beginOp (pc : CasePc) (op : CaseOp) (rest : List CaseOp) (view : CaseTables) :
    Effect CaseTables CasePc :=
  match op with
  | .insertOrder id parentTicketId columns =>
      goTo { pc with todo := rest }
        (guardPoint none
          { id := id, kind := .workOrder, parentTicketId := parentTicketId, columns := columns })
  | .updateOrder id _ _ =>
      if (view.entity? .workOrder id).isNone then .abort
      else goTo { pc with todo := rest } (.lockRow op)
  | .settleCase id _ =>
      if (view.ticket? id).isNone then .abort else goTo { pc with todo := rest } (.lockRow op)

def lockedOp (pc : CasePc) (op : CaseOp) (view : CaseTables) : Effect CaseTables CasePc :=
  match op with
  | .insertOrder _ _ _ => goTo pc .ready
  | .updateOrder id statusCategory parentTicketId =>
      match view.entity? .workOrder id with
      | none => .abort
      | some old => goTo pc (guardPoint (some old) (updatedOrder old statusCategory parentTicketId))
  | .settleCase id closed =>
      match view.ticket? id with
      | none => .abort
      | some old =>
          goTo pc
            (if isTerminal old.columns.statusCategory then .writeCase (settledCase old closed)
              else .countChildren (settledCase old closed))

/-- The statement at a control point. -/
def caseExec (now : Int) (pc : CasePc) (view : CaseTables) : Effect CaseTables CasePc :=
  match pc.point with
  | .ready =>
      match pc.todo with
      | [] => .commit pc id
      | op :: rest => beginOp pc op rest view
  | .lockRow op => lockedOp pc op view
  | .countChildren next =>
      if 0 < view.openChildren next.id then .abort else goTo pc (.closeGuard next)
  | .closeGuard next =>
      if 0 < view.openChildren next.id then .abort else goTo pc (.writeCase next)
  | .writeCase next => writeAt pc next .ready
  | .advisory parent old new => goTo pc (.parentGuard parent old new)
  | .parentGuard parent old new =>
      if (view.ticket? parent).any fun p => isTerminal p.columns.statusCategory then .abort
      else goTo pc (.writeOrder old new)
  | .writeOrder old new =>
      if old = none ∧ (view.entities.get? new.id).isSome then .abort
      else writeAt pc new (rollupPoint old new)
  | .readSiblings parent => goTo pc (.rollParent parent (view.childCategories parent))
  | .rollParent parent categories =>
      match view.ticket? parent with
      | none => goTo pc .ready
      | some row =>
          -- an update whose `WHERE` excludes the row locks nothing
          if rollup now categories row.columns = row.columns then goTo pc .ready
          else goTo pc (.rollRow parent categories)
  | .rollRow parent categories =>
      match view.ticket? parent with
      | none => goTo pc .ready
      | some row =>
          let next : Entity := { row with columns := rollup now categories row.columns }
          if next.columns = row.columns then goTo pc .ready
          else if isTerminal next.columns.statusCategory then goTo pc (.closeGuard next)
          else goTo pc (.writeCase next)

/-- The transaction of a list of operations. -/
def caseProgram (now : Int) (ops : List CaseOp) : Program CaseTables CaseLock CasePc where
  start := { todo := ops, point := .ready }
  lock := caseLock
  exec := caseExec now

/-- The state of concurrent transactions. -/
abbrev CaseWorld (ι : Type) := World CaseTables CaseLock CasePc ι

/-- One transaction for each list of operations. -/
def caseWorld {ι : Type} [DecidableEq ι] (now : Int) (ops : ι → List CaseOp) (db : CaseTables) :
    CaseWorld ι :=
  initial (fun i => caseProgram now (ops i)) db

/-- One scheduled statement. -/
def caseStep {ι : Type} [DecidableEq ι] (now : Int) (ops : ι → List CaseOp) (w : CaseWorld ι)
    (i : ι) : CaseWorld ι :=
  step (fun i => caseProgram now (ops i)) w i

/-! ## The laws -/

def Entity.IsChildOf (e : Entity) (parent : String) : Prop :=
  e.kind = .workOrder ∧ e.parentTicketId = some parent

/-- The row is neither resolved nor closed. -/
def Entity.IsOpen (e : Entity) : Prop := isTerminal e.columns.statusCategory = false

/-- No resolved or closed case has an open work order. -/
def NoOrphan (db : CaseTables) : Prop :=
  ∀ p ∈ db.entities.rows, p.kind = .case → ¬p.IsOpen →
    ∀ c ∈ db.entities.rows, c.IsChildOf p.id → ¬c.IsOpen

/-- A case with work orders, all of them resolved or closed, is resolved or closed. -/
def RolledUp (db : CaseTables) : Prop :=
  ∀ p ∈ db.entities.rows, p.kind = .case → (∃ c ∈ db.entities.rows, c.IsChildOf p.id) →
    (∀ c ∈ db.entities.rows, c.IsChildOf p.id → ¬c.IsOpen) → ¬p.IsOpen

/-- Every transaction has committed or was rolled back. -/
def AllEnded {ι : Type} (w : CaseWorld ι) : Prop := ∀ i, (w.session i).phase ≠ .running

end Prequest.Cases
