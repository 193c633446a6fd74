import RowStore.Query.Predicate
import RowStore.Query.Source

/-!
# Filters

A filter passes on the tuples of its child that satisfy a predicate, in order.
-/
namespace RowStore.Source
variable {σ : Type}

def filter (child : Source σ) (predicate : Predicate) : Source (Lookahead σ) where
  start := child.open
  pull := child.firstMatch predicate.holds
  restart := child.rewind
  stop := child.close
  pending := child.remaining
  pending_pull := child.remaining_firstMatch predicate.holds

end RowStore.Source
