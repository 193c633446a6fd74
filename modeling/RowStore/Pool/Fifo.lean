import RowStore.Identifier

/-!
# First in, first out

The replacement order of cached pages: pages queue up as they are admitted, the front one goes
first, and a page that is queued already keeps its place.
-/
namespace RowStore

structure Fifo where
  order : List PageId := []
  deriving DecidableEq, Repr

namespace Fifo

def insert (queue : Fifo) (page : PageId) : Fifo :=
  if page ∈ queue.order then queue else ⟨queue.order ++ [page]⟩

/-- The page that would go first. -/
def victim? (queue : Fifo) : Option PageId := queue.order.head?

/-- Takes the front page out. -/
def evict (queue : Fifo) : Option PageId × Fifo := (queue.victim?, ⟨queue.order.tail⟩)

def remove (queue : Fifo) (page : PageId) : Fifo := ⟨queue.order.erase page⟩

def size (queue : Fifo) : Nat := queue.order.length

theorem nodup_remove {queue : Fifo} (h : queue.order.Nodup) (page : PageId) :
    (queue.remove page).order.Nodup := h.erase page

/-- Removing a page leaves the others in their order. -/
theorem order_remove {queue : Fifo} (h : queue.order.Nodup) (page : PageId) :
    (queue.remove page).order = queue.order.filter fun p => decide (p ≠ page) := by
  rw [remove, h.erase_eq_filter]
  refine List.filter_congr fun p _ => ?_
  by_cases hp : p = page <;> simp [hp]

end Fifo
end RowStore
