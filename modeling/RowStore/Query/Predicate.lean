import RowStore.Tuple.Basic

/-!
# Predicates

A predicate compares one field of a tuple with a constant.
-/
namespace RowStore

structure Predicate where
  field : Nat
  comparison : Comparison
  operand : Field
  deriving DecidableEq

namespace Predicate

def text (predicate : Predicate) : String :=
  s!"f = {predicate.field} op = {predicate.comparison.text} operand = {predicate.operand.text}"

def holds (predicate : Predicate) (t : Tuple) : Except StoreError Bool :=
  (t.field predicate.field).map fun field => field.satisfies predicate.comparison predicate.operand

theorem holds_eq_error_iff (predicate : Predicate) (t : Tuple) :
    (∃ e, predicate.holds t = .error e) ↔ t.fields.length ≤ predicate.field := by
  unfold holds Tuple.field
  cases h : t.fields[predicate.field]? with
  | none => simpa [Except.map] using h
  | some field =>
    have : predicate.field < t.fields.length := (List.getElem?_eq_some_iff.mp h).1
    simp only [Except.map, reduceCtorEq, exists_false, false_iff]
    omega

end Predicate
end RowStore
