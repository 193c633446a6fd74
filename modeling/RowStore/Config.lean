/-!
# Configuration

The two sizes that a database is created with: the bytes of a page and the pages of the pool.
-/
namespace RowStore

structure Config where
  pageSize : Nat := 4096
  poolPages : Nat := 50
  deriving DecidableEq, Repr

end RowStore
