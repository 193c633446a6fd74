import RowStore.Query.Plan

/-!
# The demonstration

A small database with small pages and a small pool: forty rows go in through an insert, are
committed, and come out of a filtered scan as averages by group. The demonstration is a run over a
database that writes its text as it goes, so what was written before a failure stays.
-/
namespace RowStore.Demo

/-- Writes a line. -/
def say (line : String) : Run String Unit := fun (text, db) => .ok () (text ++ line ++ "\n", db)

/-- Runs an operation of the database. -/
def onDatabase {α : Type} (operation : Db α) : Run String α := fun (text, db) =>
  match operation db with
  | .ok a db => .ok a (text, db)
  | .error e db => .error e (text, db)

/-- Runs an operation of an operator. -/
def onOperator {α : Type} (operator : Operator) (operation : Run Operator α) :
    Run String (α × Operator) := fun (text, db) =>
  match operation (operator, db) with
  | .ok a (operator, db) => .ok (a, operator) (text, db)
  | .error e (_, db) => .error e (text, db)

/-- Writes the rows that the operator has left. -/
def sayRows (operator : Operator) : Run String Operator := fun (text, db) =>
  let write (ts : List Tuple) := ts.foldl (fun text t => text ++ t.text ++ "\n") text
  match Operator.drain ((operator, []), db) with
  | .ok () ((operator, ts), db) => .ok operator (write ts, db)
  | .error e ((_, ts), db) => .error e (write ts, db)

def pageText (page : PageId) : String :=
  "PageId \x7b table_id: " ++ page.table.text ++ ", page_no: " ++ toString page.number.toNat ++ " \x7d"

def config : Config := { pageSize := 256, poolPages := 4 }

def path : String := "demo.dat"

def schema : Schema :=
  ⟨[{ type := .integer, name := some "dept" }, { type := .integer, name := some "salary" },
    { type := .char 12, name := some "name" }], by simp⟩

/-- The fields of row `i`. -/
def rowFields (i : Nat) : List Field :=
  [.int (Int32.ofNat (i % 4)), .int (Int32.ofNat (1000 + i * 10)), .str s!"emp{i}"]

/-- Fills the table through an insert and commits. -/
def fill (table : TableId) : Run String Unit := do
  let txn ← onDatabase Database.begin
  let rows ← onDatabase (Database.lift ((List.range 40).mapM fun i => Tuple.ofFields schema (rowFields i)))
  let source ← onDatabase (Database.lift (Plan.ofRows schema rows))
  let insert := Operator.ofPlan (← onDatabase (Plan.insertInto txn table source))
  let (_, insert) ← onOperator insert Operator.open
  let (count, _) ← onOperator insert Operator.next
  match count with
  | some row => say ("Inserted " ++ row.text ++ " rows")
  | none => pure ()
  onDatabase (Database.complete txn true)

/-- Writes the average salary below 1200 of every department. -/
def averages (table : TableId) : Run String Unit := do
  let txn ← onDatabase Database.begin
  let scan ← onDatabase (Plan.ofTable table (some "e"))
  let cheap := Plan.filter ⟨1, .lt, .int 1200⟩ scan
  let plan ← onDatabase (Database.lift (cheap.aggregated (some 0) 1 .avg))
  let (_, average) ← onOperator (Operator.ofPlan plan) Operator.open
  say plan.schema.text
  let _ ← sayRows average
  onDatabase (Database.complete txn true)

def script : Run String Unit := do
  say "Strata - page-oriented storage and execution core"
  say "=================================================\n"
  say s!"Created database: page size {config.pageSize} bytes, pool of {config.poolPages} pages"
  let table ← onDatabase (Database.createTable path "emp" schema "name")
  say ("Created table emp (" ++ schema.text ++ ")\n")
  fill table
  let file ← onDatabase (Database.fileOf table)
  let db ← onDatabase get
  say s!"  - Pages on disk: {(file.numPages db.volume).toNat}"
  say ("  - Cached pages: [" ++ ", ".intercalate (db.pool.cachedPages.map pageText) ++ "]\n")
  averages table
  onDatabase (modify fun db => { db with volume := db.volume.remove path })
  say "\nDemo completed successfully!"

/-- What a run of the demonstration leaves behind. -/
structure Report where
  status : Nat
  text : String
  volume : Volume

/-- The demonstration on an empty volume. -/
def report : Report :=
  match script ("", Database.new config) with
  | .ok () (text, db) => ⟨0, text, db.volume⟩
  | .error (.error _) (text, db) => ⟨1, text, db.volume⟩
  | .error (.violation _) (text, db) => ⟨101, text, db.volume⟩

end RowStore.Demo
