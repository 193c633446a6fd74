import RowStore.Assoc
import RowStore.Tuple.Basic

/-!
# Aggregation

An aggregation sums up one field of many tuples, in all or for each value of a group field. Groups
keep the order of their first tuples. Running values have 64 bits and results 32; whatever leaves
these ranges is an overflow.
-/
namespace RowStore

inductive AggregateFunction where
  | min
  | max
  | sum
  | count
  | avg
  deriving DecidableEq, Repr

namespace AggregateFunction

def text : AggregateFunction → String
  | .min => "min"
  | .max => "max"
  | .sum => "sum"
  | .count => "count"
  | .avg => "avg"

def all : List AggregateFunction := [.min, .max, .sum, .count, .avg]

/-- The function of that text. -/
def ofText? (text : String) : Option AggregateFunction := all.find? fun function => function.text == text

theorem mem_all (function : AggregateFunction) : function ∈ all := by
  cases function <;> simp [all]

end AggregateFunction

/-- The running value of a group and the number of its tuples. The value has 64 bits, which is checked; the
number has them as long as fewer than 2^63 tuples are merged, and is counted on without a bound. -/
structure Accumulator where
  value : Int
  count : Nat
  deriving DecidableEq, Repr

namespace Accumulator

/-- A group of one tuple; a field that is no integer counts as zero. -/
def start (value : Option Int) : Accumulator := ⟨value.getD 0, 1⟩

/-- The sum, when it has 64 bits. -/
def checkedAdd (a b : Int) : Option Int :=
  if -9223372036854775808 ≤ a + b ∧ a + b ≤ 9223372036854775807 then some (a + b) else none

/-- Adds a tuple to the group. An overflow leaves the running value, but the tuple is counted. -/
def add (function : AggregateFunction) (value : Option Int) : EStateM StoreError Accumulator Unit :=
  fun acc =>
    let counted := { acc with count := acc.count + 1 }
    match value with
    | none => .ok () counted
    | some v =>
      match function with
      | .min => .ok () { counted with value := min acc.value v }
      | .max => .ok () { counted with value := max acc.value v }
      | .count => .ok () counted
      | .sum | .avg =>
        match checkedAdd acc.value v with
        | some value => .ok () { counted with value }
        | none => .error (.aggregateOverflow function.text acc.value) counted

/-- The exact result; an average is truncated toward zero. -/
def exact (acc : Accumulator) : AggregateFunction → Int
  | .count => acc.count
  | .avg => acc.value.tdiv acc.count
  | .min | .max | .sum => acc.value

/-- The result as the value of an integer field. -/
def result (acc : Accumulator) (function : AggregateFunction) : Except StoreError Int32 :=
  let value := acc.exact function
  if -2147483648 ≤ value ∧ value ≤ 2147483647 then .ok (Int32.ofInt value)
  else .error (.aggregateOverflow function.text value)

end Accumulator

/-- Running groups by key, in the order of their first tuples; without a group field the only key is
none. -/
abbrev Groups := Assoc (Option Field) Accumulator

structure Aggregation where
  function : AggregateFunction
  field : Nat
  group : Option Nat
  schema : Schema
  deriving DecidableEq

namespace Aggregation

/-- The aggregation over tuples of the input schema; only counting works on texts. -/
def ofSchema (input : Schema) (group : Option Nat) (field : Nat) (function : AggregateFunction) :
    Except StoreError Aggregation := do
  let column ← input.column field
  if column.type.isString && function != .count then
    throw (.unsupportedAggregate function.text column.type.text)
  let name := function.text ++ "(" ++ column.name.getD "" ++ ")"
  let value : Column := { type := .integer, name := some name }
  match group with
  | none => return { function, field, group, schema := ⟨[value], by simp⟩ }
  | some index =>
    let key ← input.column index
    return { function, field, group, schema := ⟨[key, value], by simp⟩ }

/-- The group that a tuple belongs to. -/
def key (aggregation : Aggregation) (t : Tuple) : Except StoreError (Option Field) :=
  match aggregation.group with
  | none => .ok none
  | some index => (t.field index).map some

/-- Adds a tuple to its group. -/
def merge (aggregation : Aggregation) (t : Tuple) : EStateM StoreError Groups Unit := fun groups =>
  match aggregation.key t, t.field aggregation.field with
  | .error e, _ => .error e groups
  | .ok _, .error e => .error e groups
  | .ok key, .ok field =>
    let value := field.asInt.map Int32.toInt
    match groups.get? key with
    | none => .ok () (groups.insert key (Accumulator.start value))
    | some acc =>
      match Accumulator.add aggregation.function value acc with
      | .ok () acc => .ok () (groups.insert key acc)
      | .error e acc => .error e (groups.insert key acc)

/-- The row of one group. -/
def row (aggregation : Aggregation) (key : Option Field) (acc : Accumulator) :
    Except StoreError Tuple := do
  let value ← acc.result aggregation.function
  Tuple.ofFields aggregation.schema (key.toList ++ [.int value])

/-- One row for each group, in the order of the groups. -/
def rows (aggregation : Aggregation) (groups : Groups) : Except StoreError (List Tuple) :=
  groups.entries.mapM fun entry => aggregation.row entry.1 entry.2

end Aggregation
end RowStore
