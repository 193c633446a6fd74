import RowStore.Field.Basic
import RowStore.Schema

/-!
# Tuples

A tuple is a list of fields under a schema, with the place where it is stored if it has one.
`Tuple.Valid` says that the fields fit the columns one by one, which is what building a tuple and
changing a field check; two tuples are the same row when schema types and fields agree.
-/
namespace RowStore

structure Tuple where
  schema : Schema
  fields : List Field
  record : Option RecordId := none
  deriving DecidableEq

namespace Tuple

/-- The field may go into column `index`. -/
def checkField (index : Nat) (field : Field) (type : ColumnType) : Except StoreError Unit :=
  if field.fits type then .ok ()
  else match field, type with
    | .str value, .char width => .error (.fieldTooLong value.utf8ByteSize width.toNat)
    | _, _ => .error (.typeMismatch index type.text field.type.text)

/-- The fields may go into the columns from `index` on, one by one. -/
def checkFields : Nat → List Field → List ColumnType → Except StoreError Unit
  | index, field :: fields, type :: types =>
    match checkField index field type with
    | .error e => .error e
    | .ok () => checkFields (index + 1) fields types
  | _, _, _ => .ok ()

/-- There is one field for each column, and it fits. -/
def Valid (t : Tuple) : Prop :=
  t.fields.length = t.schema.types.length ∧
    ∀ pair ∈ t.fields.zip t.schema.types, pair.1.fits pair.2 = true

instance (t : Tuple) : Decidable t.Valid := inferInstanceAs (Decidable (_ ∧ _))

def ofFields (schema : Schema) (fields : List Field) : Except StoreError Tuple :=
  if fields.length = schema.fieldCount then
    match checkFields 0 fields schema.types with
    | .error e => .error e
    | .ok () => .ok { schema, fields }
  else .error (.schemaMismatch schema.text s!"{fields.length} fields")

/-- The same values, wherever the tuples are stored and whatever the columns are called. -/
def sameRow (a b : Tuple) : Bool := decide (a.schema.Agrees b.schema) && decide (a.fields = b.fields)

def text (t : Tuple) : String := "\t".intercalate (t.fields.map Field.text)

def field (t : Tuple) (index : Nat) : Except StoreError Field :=
  match t.fields[index]? with
  | some field => .ok field
  | none => .error (.fieldIndexOutOfRange index t.fields.length)

def setField (t : Tuple) (index : Nat) (field : Field) : Except StoreError Tuple :=
  match t.schema.fieldType index with
  | .error e => .error e
  | .ok type =>
    match checkField index field type with
    | .error e => .error e
    | .ok () => .ok { t with fields := t.fields.set index field }

/-- The tuple under other column names. -/
def resetSchema (t : Tuple) (schema : Schema) : Except StoreError Tuple :=
  if schema.Agrees t.schema then .ok { t with schema }
  else .error (.schemaMismatch t.schema.text schema.text)

end Tuple
end RowStore
