import RowStore.Column
import RowStore.Error

/-!
# Schemas

A schema is a nonempty list of columns. Two schemas agree when their column types do; names matter
only for looking columns up and for display. Joining schemas adds their sizes, and an alias changes
neither types nor size.
-/
namespace RowStore

structure Schema where
  columns : List Column
  columns_ne_nil : columns ≠ []
  deriving DecidableEq, Repr

namespace Schema

def types (schema : Schema) : List ColumnType := schema.columns.map Column.type

/-- The schemas describe the same values. -/
def Agrees (a b : Schema) : Prop := a.types = b.types

instance (a b : Schema) : Decidable (a.Agrees b) := inferInstanceAs (Decidable (a.types = b.types))

/-- The bytes of a stored tuple. -/
def size (schema : Schema) : Nat := ColumnType.totalSize schema.types

def fieldCount (schema : Schema) : Nat := schema.columns.length

def text (schema : Schema) : String := ", ".intercalate (schema.columns.map Column.text)

def ofColumns (columns : List Column) : Except StoreError Schema :=
  if h : columns ≠ [] then .ok ⟨columns, h⟩
  else .error (.invalidSchema "a schema needs at least one column")

/-- Unnamed columns of the given types. -/
def ofTypes (types : List ColumnType) : Except StoreError Schema :=
  ofColumns (types.map fun type => { type })

/-- One column for each type, named in order. -/
def ofTypesAndNames (types : List ColumnType) (names : List String) : Except StoreError Schema :=
  if types.length = names.length then
    ofColumns (types.zipWith (fun type name => { type, name := some name }) names)
  else .error (.invalidSchema s!"{types.length} types but {names.length} names")

/-- The columns of the first schema followed by those of the second. -/
def merge (a b : Schema) : Schema :=
  ⟨a.columns ++ b.columns, by simp [a.columns_ne_nil]⟩

/-- The schema of a table seen through an alias. -/
def qualify (qualifier : String) (schema : Schema) : Schema :=
  ⟨schema.columns.map (Column.qualify qualifier), by simp [schema.columns_ne_nil]⟩

def column (schema : Schema) (index : Nat) : Except StoreError Column :=
  match schema.columns[index]? with
  | some column => .ok column
  | none => .error (.fieldIndexOutOfRange index schema.fieldCount)

def fieldType (schema : Schema) (index : Nat) : Except StoreError ColumnType :=
  (schema.column index).map Column.type

def fieldName (schema : Schema) (index : Nat) : Except StoreError (Option String) :=
  (schema.column index).map Column.name

/-- The position of the first column of that name. -/
def indexOf (schema : Schema) (name : String) : Except StoreError Nat :=
  match schema.columns.findIdx? (fun column => column.name == some name) with
  | some index => .ok index
  | none => .error (.fieldNameNotFound name)

theorem length_types (schema : Schema) : schema.types.length = schema.fieldCount := List.length_map _

theorem Agrees.size_eq {a b : Schema} (h : a.Agrees b) : a.size = b.size := by
  rw [size, size, h]

@[simp] theorem types_merge (a b : Schema) : (a.merge b).types = a.types ++ b.types := by
  simp [types, merge]

theorem size_merge (a b : Schema) : (a.merge b).size = a.size + b.size := by
  rw [size, types_merge, ColumnType.totalSize_append]
  rfl

@[simp] theorem types_qualify (qualifier : String) (schema : Schema) :
    (schema.qualify qualifier).types = schema.types := by
  simp [types, qualify, Function.comp_def]

theorem agrees_qualify (qualifier : String) (schema : Schema) : (schema.qualify qualifier).Agrees schema :=
  types_qualify qualifier schema

end Schema

/-- The columns of a schema that is put together one by one. -/
structure SchemaBuilder where
  columns : List Column := []

namespace SchemaBuilder

def column (builder : SchemaBuilder) (name : String) (type : ColumnType) : SchemaBuilder :=
  ⟨builder.columns ++ [{ type, name := some name }]⟩

def unnamed (builder : SchemaBuilder) (type : ColumnType) : SchemaBuilder :=
  ⟨builder.columns ++ [{ type := type }]⟩

def build (builder : SchemaBuilder) : Except StoreError Schema := Schema.ofColumns builder.columns

end SchemaBuilder
end RowStore
