import RowStore.Storage.TableFile

/-!
# The catalog

The catalog names the tables of a database: each registered file has one name, and each name leads
to one file. Registering a file under a name in use takes the name over, and registering a known
file again renames it.
-/
namespace RowStore

/-- What the catalog knows of a table. -/
structure TableEntry where
  file : TableFile
  name : String
  primaryKey : String
  deriving DecidableEq

structure Catalog where
  tables : Assoc TableId TableEntry := ⟨[]⟩
  ids : Assoc String TableId := ⟨[]⟩
  deriving DecidableEq

namespace Catalog

/-- Registers a file. A table that held the name before is dropped, and so is the name that the
file had before. -/
def addTable (catalog : Catalog) (file : TableFile) (name primaryKey : String) : Catalog :=
  let tables := match catalog.ids.get? name with
    | some old => if old = file.id then catalog.tables else catalog.tables.erase old
    | none => catalog.tables
  let ids := catalog.ids.insert name file.id
  let ids := match tables.get? file.id with
    | some entry => if entry.name = name then ids else ids.erase entry.name
    | none => ids
  { tables := tables.insert file.id { file, name, primaryKey }, ids }

def tableId (catalog : Catalog) (name : String) : Except StoreError TableId :=
  match catalog.ids.get? name with
  | some id => .ok id
  | none => .error (.tableNameNotFound name)

def entry (catalog : Catalog) (id : TableId) : Except StoreError TableEntry :=
  match catalog.tables.get? id with
  | some entry => .ok entry
  | none => .error (.tableNotFound id)

def file (catalog : Catalog) (id : TableId) : Except StoreError TableFile :=
  (catalog.entry id).map TableEntry.file

theorem mem_keys_of_file {catalog : Catalog} {table : TableId} {file : TableFile}
    (h : catalog.file table = .ok file) : table ∈ catalog.tables.keys := by
  rw [← Assoc.contains_iff_mem_keys, Assoc.contains]
  cases hentry : catalog.tables.get? table with
  | none =>
    rw [Catalog.file, entry, hentry] at h
    cases h
  | some entry => rfl

def schema (catalog : Catalog) (id : TableId) : Except StoreError Schema :=
  (catalog.file id).map TableFile.schema

def primaryKey (catalog : Catalog) (id : TableId) : Except StoreError String :=
  (catalog.entry id).map TableEntry.primaryKey

def tableName (catalog : Catalog) (id : TableId) : Except StoreError String :=
  (catalog.entry id).map TableEntry.name

def tableIds (catalog : Catalog) : List TableId := catalog.tables.keys

/-- The registered tables, sorted by the labels of their files. -/
def listing (catalog : Catalog) : List TableEntry :=
  catalog.tables.values.mergeSort fun a b => a.file.id.label ≤ b.file.id.label

/-- The catalog without tables. -/
def clear (_ : Catalog) : Catalog := {}

end Catalog
end RowStore
