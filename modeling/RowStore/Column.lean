/-!
# Columns

A column holds integers or texts of a bounded number of bytes, and may have a name. Every value of a
column type takes the same number of bytes on disk.
-/
namespace RowStore

inductive ColumnType where
  | integer
  | char (width : UInt16)
  deriving DecidableEq, Repr

namespace ColumnType

/-- The type of a text column whose width is not stated. -/
def string : ColumnType := .char 128

/-- The bytes of a stored value: an integer takes one word, a text its length word and its width. -/
def size : ColumnType → Nat
  | .integer => 4
  | .char width => 4 + width.toNat

def isString : ColumnType → Bool
  | .integer => false
  | .char _ => true

def text : ColumnType → String
  | .integer => "INTEGER"
  | .char width => "CHAR(" ++ toString width.toNat ++ ")"

/-- The type of that text; a text column without a width may be asked for, too. -/
def ofText? (text : String) : Option ColumnType :=
  if text = "INTEGER" then some .integer
  else if text = "STRING" then some string
  else if text.startsWith "CHAR(" && text.endsWith ")" then
    match ((text.drop 5).dropEnd 1).toString.toNat? with
    | some width => if width < 65536 then some (.char (UInt16.ofNat width)) else none
    | none => none
  else none

/-- The bytes of one value of each type. -/
def totalSize : List ColumnType → Nat
  | [] => 0
  | type :: types => type.size + totalSize types

theorem totalSize_append (a b : List ColumnType) : totalSize (a ++ b) = totalSize a + totalSize b := by
  induction a with
  | nil => simp [totalSize]
  | cons type types ih => simp [totalSize, ih, Nat.add_assoc]

end ColumnType

structure Column where
  type : ColumnType
  name : Option String := none
  deriving DecidableEq, Repr

namespace Column

def size (column : Column) : Nat := column.type.size

/-- The type with the name in brackets; an unnamed column leaves the brackets empty. -/
def text (column : Column) : String := column.type.text ++ "(" ++ column.name.getD "" ++ ")"

/-- The column as seen through an alias of its table. -/
def qualify (qualifier : String) (column : Column) : Column :=
  { column with name := some (qualifier ++ "." ++ column.name.getD "") }

@[simp] theorem type_qualify (qualifier : String) (column : Column) :
    (column.qualify qualifier).type = column.type := rfl

end Column
end RowStore
