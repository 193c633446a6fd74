import RowStore.Identifier

/-!
# Errors

`StoreError` lists the causes for which an operation is refused, each with the facts of the case;
`StoreError.message` words them and `StoreError.kind` sorts them into five classes. A `Fault` is
either such a refusal or the breach of an operation's own contract, after which a run stops.
-/
namespace RowStore

inductive ErrorKind where
  | notFound
  | configuration
  | illegalState
  | storage
  | resource
  deriving DecidableEq, Repr

def ErrorKind.name : ErrorKind → String
  | .notFound => "NotFound"
  | .configuration => "Configuration"
  | .illegalState => "IllegalState"
  | .storage => "Storage"
  | .resource => "Resource"

inductive StoreError where
  | io (reason : String)
  | tableNotFound (table : TableId)
  | tableNameNotFound (name : String)
  | pageNotFound (page : PageId) (numPages : UInt32)
  | fieldIndexOutOfRange (index count : Nat)
  | fieldNameNotFound (name : String)
  | missingRecordId
  | recordNotOnPage (record : RecordId) (page : PageId)
  | emptySlot (page : PageId) (slot : SlotId)
  | pageFull (page : PageId)
  | corruptPage (page : PageId) (reason : String)
  | schemaMismatch (expected found : String)
  | invalidSchema (reason : String)
  | typeMismatch (index : Nat) (expected found : String)
  | fieldTooLong (length capacity : Nat)
  | tupleTooWide (tupleSize pageSize : Nat)
  | tooManySlots (slots pageSize : Nat)
  | unsupportedAggregate (function columnType : String)
  | aggregateOverflow (function : String) (value : Int)
  | operatorNotOpen
  | poolExhausted (capacity : Nat)
  deriving DecidableEq, Repr

namespace StoreError

def kind : StoreError → ErrorKind
  | .tableNotFound _ | .tableNameNotFound _ | .pageNotFound _ _ | .fieldIndexOutOfRange _ _
  | .fieldNameNotFound _ | .missingRecordId | .recordNotOnPage _ _ | .emptySlot _ _ => .notFound
  | .schemaMismatch _ _ | .invalidSchema _ | .typeMismatch _ _ _ | .fieldTooLong _ _
  | .tupleTooWide _ _ | .tooManySlots _ _ | .unsupportedAggregate _ _
  | .aggregateOverflow _ _ => .configuration
  | .operatorNotOpen => .illegalState
  | .io _ | .corruptPage _ _ | .pageFull _ => .storage
  | .poolExhausted _ => .resource

/-- The cause without the facts of the case. -/
def name : StoreError → String
  | .io _ => "Io"
  | .tableNotFound _ => "TableNotFound"
  | .tableNameNotFound _ => "TableNameNotFound"
  | .pageNotFound _ _ => "PageNotFound"
  | .fieldIndexOutOfRange _ _ => "FieldIndexOutOfRange"
  | .fieldNameNotFound _ => "FieldNameNotFound"
  | .missingRecordId => "MissingRecordId"
  | .recordNotOnPage _ _ => "RecordNotOnPage"
  | .emptySlot _ _ => "EmptySlot"
  | .pageFull _ => "PageFull"
  | .corruptPage _ _ => "CorruptPage"
  | .schemaMismatch _ _ => "SchemaMismatch"
  | .invalidSchema _ => "InvalidSchema"
  | .typeMismatch _ _ _ => "TypeMismatch"
  | .fieldTooLong _ _ => "FieldTooLong"
  | .tupleTooWide _ _ => "TupleTooWide"
  | .tooManySlots _ _ => "TooManySlots"
  | .unsupportedAggregate _ _ => "UnsupportedAggregate"
  | .aggregateOverflow _ _ => "AggregateOverflow"
  | .operatorNotOpen => "OperatorNotOpen"
  | .poolExhausted _ => "PoolExhausted"

def message : StoreError → String
  | .io reason => s!"I/O error: {reason}"
  | .tableNotFound table => s!"Table {table.text} not found"
  | .tableNameNotFound name => s!"Table '{name}' not found"
  | .pageNotFound page numPages =>
    s!"Page {page.text} not found: table file has {numPages.toNat} pages"
  | .fieldIndexOutOfRange index count =>
    s!"Field index {index} out of range for schema with {count} fields"
  | .fieldNameNotFound name => s!"Field '{name}' not found"
  | .missingRecordId => "Tuple has no record id"
  | .recordNotOnPage record page => s!"Record {record.text} is not stored on {page.text}"
  | .emptySlot page slot => s!"Slot {slot.text} on {page.text} is empty"
  | .pageFull page => s!"Page {page.text} is full"
  | .corruptPage page reason => s!"Corrupt page {page.text}: {reason}"
  | .schemaMismatch expected found =>
    s!"Schema mismatch: expected [{expected}], found [{found}]"
  | .invalidSchema reason => s!"Invalid schema: {reason}"
  | .typeMismatch index expected found =>
    s!"Type mismatch at field {index}: expected {expected}, found {found}"
  | .fieldTooLong length capacity =>
    s!"String of {length} bytes exceeds field capacity of {capacity} bytes"
  | .tupleTooWide tupleSize pageSize =>
    s!"Tuple of {tupleSize} bytes does not fit in a {pageSize}-byte page"
  | .tooManySlots slots pageSize =>
    s!"A {pageSize}-byte page holds {slots} slots, more than a slot id can address"
  | .unsupportedAggregate function columnType =>
    s!"Aggregate {function} is not supported over {columnType} fields"
  | .aggregateOverflow function value =>
    s!"Aggregate {function} result {value} overflows an integer field"
  | .operatorNotOpen => "Operator is not open"
  | .poolExhausted capacity =>
    s!"Buffer pool exhausted: no evictable page among {capacity} slots"

end StoreError

/-- A breach of an operation's own contract: no caller is meant to recover from it. -/
inductive Violation where
  | wrongLength (expected actual : Nat)
  | divisionByZero
  | counterOverflow
  deriving DecidableEq, Repr

/-- The two ways in which an operation can fail. -/
inductive Fault where
  | error (cause : StoreError)
  | violation (breach : Violation)
  deriving DecidableEq, Repr

/-- An answer that is mapped is there exactly when the answer is. -/
theorem map_eq_ok {ε α β : Type} {f : α → β} {answer : Except ε α} {b : β} :
    answer.map f = .ok b ↔ ∃ a, answer = .ok a ∧ f a = b := by
  cases answer with
  | error e => simp [Except.map]
  | ok a => simp [Except.map]

end RowStore
