/-!
# Identifiers

Tables, pages, slots, records and transactions are named by small values. A table kept in a file is
named by that file's path, so two files never share a name; a bare number names no file. The path
stands for the 32-bit number that it is hashed to, so all that is said here of several files assumes
that no two of their paths are hashed to the same number. Every identifier has one text form and one
order.
-/
namespace RowStore

/-- The name of a table: the path of the file that stores it, or a number that belongs to no file. -/
inductive TableId where
  | number (n : UInt32)
  | file (path : String)
  deriving DecidableEq, Repr

namespace TableId

/-- The name as it appears inside other texts. -/
def label : TableId → String
  | .number n => toString n.toNat
  | .file path => "@" ++ path

def text (table : TableId) : String := "TableId(" ++ table.label ++ ")"

/-- Numbers come before files; each sort has its natural order. -/
def order : TableId → TableId → Ordering
  | .number a, .number b => compare a b
  | .number _, .file _ => .lt
  | .file _, .number _ => .gt
  | .file a, .file b => compare a b

end TableId

/-- The position of a page in its file. -/
abbrev PageNo := UInt32

/-- The position of a tuple in its page. -/
abbrev SlotId := UInt16

def SlotId.text (slot : SlotId) : String := "SlotId(" ++ toString slot.toNat ++ ")"

structure PageId where
  table : TableId
  number : PageNo
  deriving DecidableEq, Repr

namespace PageId

def text (page : PageId) : String :=
  "PageId(" ++ page.table.label ++ ":" ++ toString page.number.toNat ++ ")"

/-- Pages are ordered by table and then by position. -/
def order (a b : PageId) : Ordering := (a.table.order b.table).then (compare a.number b.number)

end PageId

/-- The place of a stored tuple. -/
structure RecordId where
  page : PageId
  slot : SlotId
  deriving DecidableEq, Repr

def RecordId.text (record : RecordId) : String :=
  record.page.text ++ "#" ++ toString record.slot.toNat

structure TransactionId where
  number : UInt64
  deriving DecidableEq, Repr

namespace TransactionId

def text (txn : TransactionId) : String := "Txn(" ++ toString txn.number.toNat ++ ")"

/-- Transactions are ordered by age: a later one is greater. -/
def order (a b : TransactionId) : Ordering := compare a.number b.number

/-- The first transaction of a database. -/
def first : TransactionId := ⟨1⟩

def next (txn : TransactionId) : TransactionId := ⟨txn.number + 1⟩

end TransactionId
end RowStore
