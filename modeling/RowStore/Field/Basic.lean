import RowStore.Column

/-!
# Field values

A field holds a signed 32-bit integer or a text. Values of one sort are ordered, texts by their
characters; values of different sorts are not comparable, so no comparison holds between them.
-/
namespace RowStore

/-- The comparisons of a query. -/
inductive Comparison where
  | eq
  | ne
  | lt
  | le
  | gt
  | ge
  | like
  deriving DecidableEq, Repr

namespace Comparison

def text : Comparison → String
  | .eq => "="
  | .ne => "<>"
  | .lt => "<"
  | .le => "<="
  | .gt => ">"
  | .ge => ">="
  | .like => "LIKE"

def all : List Comparison := [.eq, .ne, .lt, .le, .gt, .ge, .like]

/-- The comparison of that text. -/
def ofText? (text : String) : Option Comparison := all.find? fun comparison => comparison.text == text

theorem mem_all (comparison : Comparison) : comparison ∈ all := by
  cases comparison <;> simp [all]

/-- The comparison holds between values in that order; on values that have one, likeness is
equality. -/
def holds : Comparison → Ordering → Bool
  | .eq, order | .like, order => order == .eq
  | .ne, order => order != .eq
  | .lt, order => order == .lt
  | .le, order => order != .gt
  | .gt, order => order == .gt
  | .ge, order => order != .lt

end Comparison

/-- The first list occurs in the second as a run of neighbours. -/
def occursIn {α : Type} [BEq α] (part : List α) : List α → Bool
  | [] => part.isEmpty
  | x :: rest => part.isPrefixOf (x :: rest) || occursIn part rest

inductive Field where
  | int (value : Int32)
  | str (value : String)
  deriving DecidableEq

namespace Field

/-- The narrowest type for the value; texts past the widest column have the widest type. -/
def type : Field → ColumnType
  | .int _ => .integer
  | .str value => .char (UInt16.ofNat (min value.utf8ByteSize 65535))

/-- The value can be stored in a column of the type. -/
def fits : Field → ColumnType → Bool
  | .int _, .integer => true
  | .str value, .char width => value.utf8ByteSize ≤ width.toNat
  | _, _ => false

def asInt : Field → Option Int32
  | .int value => some value
  | .str _ => none

def asStr : Field → Option String
  | .int _ => none
  | .str value => some value

def text : Field → String
  | .int value => toString value.toInt
  | .str value => value

/-- Integers and texts each have their order; across the two there is none. -/
def order : Field → Field → Option Ordering
  | .int a, .int b => some (compare a b)
  | .str a, .str b => some (compare a b)
  | _, _ => none

/-- A text is like another when it contains it; all else goes by the order of the values. -/
def satisfies (a : Field) (comparison : Comparison) (b : Field) : Bool :=
  match comparison, a, b with
  | .like, .str whole, .str part => occursIn part.toList whole.toList
  | comparison, a, b => (a.order b).any comparison.holds

end Field
end RowStore
