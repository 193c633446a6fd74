import RowStore.Query.Change
import RowStore.Query.Filter
import RowStore.Query.Leaf
import RowStore.Query.Summary

/-!
# Plans

A plan is a tree of operators, checked from the leaves up when it is built: rows must agree with
their schema, columns must exist, and inserted tuples must agree with their table. Each plan has its
own type of states, and `Plan.source` runs it.
-/
namespace RowStore

inductive Plan where
  | rows (schema : Schema) (rows : List Tuple)
  | scan (file : TableFile) (qualifier : String)
  | filter (predicate : Predicate) (child : Plan)
  | aggregate (aggregation : Aggregation) (child : Plan)
  | insert (txn : TransactionId) (table : TableId) (child : Plan)
  | delete (txn : TransactionId) (child : Plan)

namespace Plan

/-- The schema of the tuples that the plan yields. -/
def schema : Plan → Schema
  | .rows schema _ => schema
  | .scan file qualifier => file.schema.qualify qualifier
  | .filter _ child => child.schema
  | .aggregate aggregation _ => aggregation.schema
  | .insert _ _ _ | .delete _ _ => Source.countSchema

/-- A leaf of given rows. -/
def ofRows (schema : Schema) (rows : List Tuple) : Except StoreError Plan :=
  match rows.find? fun t => !decide (t.schema.Agrees schema) with
  | some t => .error (.schemaMismatch schema.text t.schema.text)
  | none => .ok (.rows schema rows)

/-- A scan of a registered table, which is called by its own name unless it gets another. -/
def ofTable (table : TableId) (qualifier : Option String) : Db Plan := do
  let file ← Database.fileOf table
  match qualifier with
  | some qualifier => return .scan file qualifier
  | none => return .scan file (← Database.lift ((← get).catalog.tableName table))

def aggregated (child : Plan) (group : Option Nat) (field : Nat) (function : AggregateFunction) :
    Except StoreError Plan :=
  (Aggregation.ofSchema child.schema group field function).map fun aggregation =>
    .aggregate aggregation child

/-- An insert into a registered table whose schema the child's tuples must have. -/
def insertInto (txn : TransactionId) (table : TableId) (child : Plan) : Db Plan := do
  let expected := (← Database.fileOf table).schema
  unless child.schema.Agrees expected do
    throw (.error (.schemaMismatch expected.text child.schema.text))
  return .insert txn table child

/-- The states of a plan's root, the lookahead of the root itself apart. -/
def State : Plan → Type
  | .rows _ _ => Playback
  | .scan _ _ => Option Cursor
  | .filter _ child => Lookahead child.State
  | .aggregate _ child => SummaryState child.State
  | .insert _ _ child | .delete _ child => ChangeState child.State

/-- The state of a plan that was never opened. -/
def initial : (plan : Plan) → plan.State
  | .rows _ ts => Playback.ofRows ts
  | .scan _ _ => (none : Option Cursor)
  | .filter _ child => ({ inner := child.initial } : Lookahead child.State)
  | .aggregate _ child => ({ child := { inner := child.initial } } : SummaryState child.State)
  | .insert _ _ child | .delete _ child =>
    ({ child := { inner := child.initial } } : ChangeState child.State)

/-- How the plan runs. -/
def source : (plan : Plan) → Source plan.State
  | .rows _ _ => Source.rows
  | .scan file qualifier => Source.scan file (file.schema.qualify qualifier)
  | .filter predicate child => child.source.filter predicate
  | .aggregate aggregation child => child.source.summary aggregation
  | .insert txn table child => child.source.change (Database.insertTuple txn table)
  | .delete txn child => child.source.change (Database.deleteTuple txn)

end Plan

/-- A plan with the state of its run. -/
structure Operator where
  plan : Plan
  state : Lookahead plan.State

namespace Operator

/-- The operator of a plan that was never opened. -/
def ofPlan (plan : Plan) : Operator := ⟨plan, { inner := plan.initial }⟩

/-- Runs an operation of the plan on the operator's state. -/
def run {α : Type} (operation : (plan : Plan) → Run (Lookahead plan.State) α) : Run Operator α :=
  fun (operator, db) =>
    match operation operator.plan (operator.state, db) with
    | .ok a (state, db) => .ok a (⟨operator.plan, state⟩, db)
    | .error e (state, db) => .error e (⟨operator.plan, state⟩, db)

def next : Run Operator (Option Tuple) := run fun plan => plan.source.next

def hasNext : Run Operator Bool := run fun plan => plan.source.hasNext

def rewind : Run Operator Unit := run fun plan => plan.source.rewind

def close (operator : Operator) : Operator :=
  { operator with state := operator.plan.source.close operator.state }

/-- Puts a tuple behind those taken before. -/
def collect (t : Tuple) : Run (List Tuple) Unit := fun (ts, db) => .ok () (ts ++ [t], db)

/-- Takes the tuples that are left, in order, up to the first error. -/
def drain : Run (Operator × List Tuple) Unit := fun ((operator, ts), db) =>
  match operator.plan.source.forEach collect ((operator.state, ts), db) with
  | .ok () ((state, ts), db) => .ok () ((⟨operator.plan, state⟩, ts), db)
  | .error e ((state, ts), db) => .error e ((⟨operator.plan, state⟩, ts), db)

end Operator

def Operator.open : Run Operator Unit := Operator.run fun plan => plan.source.open

end RowStore
