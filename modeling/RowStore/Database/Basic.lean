import RowStore.Catalog
import RowStore.Config
import RowStore.Pool.Basic

/-!
# Databases

A database is a volume of files with the traffic of each opened file, a catalog of tables and a
buffer pool. `Db` is the type of its operations: an operation that fails keeps what it had changed
before, so the state after a failure is part of its meaning.
-/
namespace RowStore

structure Database where
  config : Config := {}
  volume : Volume := {}
  traffic : List Traffic := []
  catalog : Catalog := {}
  pool : Pool
  nextTxn : TransactionId := .first
  deriving DecidableEq

/-- An operation on a database. -/
abbrev Db (α : Type) := EStateM Fault Database α

namespace Db
variable {α β : Type}

theorem pure_run (a : α) (db : Database) : (pure a : Db α) db = .ok a db := rfl

theorem throw_run (e : Fault) (db : Database) : (throw e : Db α) db = .error e db := rfl

theorem get_run (db : Database) : (get : Db Database) db = .ok db db := rfl

theorem modify_run (change : Database → Database) (db : Database) :
    (modify change : Db PUnit) db = .ok ⟨⟩ (change db) := rfl

/-- The second operation runs on what the first leaves, or not at all. -/
theorem bind_run (operation : Db α) (next : α → Db β) (db : Database) :
    (operation >>= next) db =
      match operation db with
      | .ok a db => next a db
      | .error e db => .error e db := by
  change EStateM.bind operation next db = _
  unfold EStateM.bind
  cases operation db <;> rfl

end Db

namespace Database

/-- A database without tables over the files of a volume. -/
def onVolume (config : Config) (volume : Volume) : Database :=
  { config, volume, pool := { capacity := config.poolPages } }

def new (config : Config) : Database := onVolume config {}

/-- An answer of the rules becomes an operation that changes nothing. -/
def lift {α : Type} (answer : Except StoreError α) : Db α := fun db =>
  match answer with
  | .ok a => .ok a db
  | .error e => .error (.error e) db

/-- Starts a transaction. -/
def begin : Db TransactionId := fun db =>
  .ok db.nextTxn { db with nextTxn := db.nextTxn.next }

/-- The counters of an open file. -/
def trafficOf (db : Database) (file : TableFile) : Traffic := db.traffic[file.serial]?.getD {}

/-- Opens the file at a path, creating it where it does not exist. The sizes are checked first. -/
def openFile (path : String) (schema : Schema) (pageSize : Nat) : Db TableFile := fun db =>
  let slots := Layout.slotCount schema.size pageSize
  if hpos : 0 < slots then
    if hle : slots ≤ Layout.maxSlots then
      match Path.resolve? path with
      | none => .error (.error (.io "No such file or directory")) db
      | some name =>
        .ok ⟨db.traffic.length, ⟨name, pageSize⟩, schema, hpos, hle⟩
          { db with volume := db.volume.touch name, traffic := db.traffic ++ [{}] }
    else .error (.error (.tooManySlots slots pageSize)) db
  else .error (.error (.tupleTooWide schema.size pageSize)) db

def addTable (file : TableFile) (name primaryKey : String) : Db Unit := fun db =>
  .ok () { db with catalog := db.catalog.addTable file name primaryKey }

/-- Opens a file with the page size of the database and registers it as a table. -/
def createTable (path name : String) (schema : Schema) (primaryKey : String) : Db TableId := do
  let file ← openFile path schema (← get).config.pageSize
  addTable file name primaryKey
  return file.id

def clearCatalog : Db Unit := fun db => .ok () { db with catalog := db.catalog.clear }

/-- The registered file of a table. -/
def fileOf (table : TableId) : Db TableFile := fun db => lift (db.catalog.file table) db

theorem fileOf_of_registered {db : Database} {table : TableId} {file : TableFile}
    (h : db.catalog.file table = .ok file) : fileOf table db = .ok file db := by
  simp only [fileOf, lift, h]

theorem fileOf_of_missing {db : Database} {table : TableId} {e : StoreError}
    (h : db.catalog.file table = .error e) : fileOf table db = .error (.error e) db := by
  simp only [fileOf, lift, h]

end Database
end RowStore
