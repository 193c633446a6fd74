import RowStore.Assoc
import RowStore.Page.Basic
import RowStore.Pool.Fifo

/-!
# The buffer pool

The pool keeps a bounded number of pages in frames, with a queue that says which goes next. Every
load makes a new frame with a serial number of its own; a frame that has left the pool is retired
and still shows its page as it was then, so an old reference can be read.
-/
namespace RowStore

/-- A page in memory. -/
structure Frame where
  serial : Nat
  page : Page
  deriving DecidableEq

structure Pool where
  capacity : Nat
  frames : Assoc PageId Frame := ⟨[]⟩
  queue : Fifo := {}
  nextSerial : Nat := 0
  retired : List Frame := []
  deriving DecidableEq

namespace Pool

def size (pool : Pool) : Nat := pool.frames.size

def isEmpty (pool : Pool) : Bool := pool.frames.entries.isEmpty

def isCached (pool : Pool) (page : PageId) : Bool := pool.frames.contains page

/-- The cached pages, the next to go first. -/
def cachedPages (pool : Pool) : List PageId := pool.queue.order

/-- The cached page. -/
def page? (pool : Pool) (page : PageId) : Option Page := (pool.frames.get? page).map Frame.page

/-- The frames whose page the transaction changed last, with the pages they are held for. -/
def dirtiedBy (pool : Pool) (txn : TransactionId) : List (PageId × Frame) :=
  pool.frames.entries.filter fun entry => entry.2.page.dirtiedBy == some txn

/-- Puts a page into a new frame at the back of the queue. -/
def install (pool : Pool) (page : Page) : Frame × Pool :=
  let frame : Frame := ⟨pool.nextSerial, page⟩
  (frame, { pool with
    frames := pool.frames.insert page.id frame
    queue := pool.queue.insert page.id
    nextSerial := pool.nextSerial + 1 })

/-- Takes a page out of the pool, whatever its state. -/
def drop (pool : Pool) (page : PageId) : Pool :=
  { pool with
    frames := pool.frames.erase page
    queue := pool.queue.remove page
    retired := (pool.frames.get? page).toList ++ pool.retired }

/-- Changes the page in its frame. -/
def modify (pool : Pool) (page : PageId) (change : Page → Page) : Pool :=
  { pool with
    frames := pool.frames.modify page fun frame => { frame with page := change frame.page } }

/-- The page of the frame with that serial number, in the pool or as it left it. -/
def pageOfFrame? (pool : Pool) (serial : Nat) : Option Page :=
  ((pool.frames.values ++ pool.retired).find? fun frame => frame.serial == serial).map Frame.page

theorem page?_modify (pool : Pool) (page other : PageId) (change : Page → Page) :
    (pool.modify page change).page? other =
      if other = page then (pool.page? other).map change else pool.page? other := by
  simp only [page?, modify, Assoc.get?_modify]
  split
  · rw [Option.map_map, Option.map_map]
    rfl
  · rfl

theorem page?_drop (pool : Pool) (page other : PageId) :
    (pool.drop page).page? other = if other = page then none else pool.page? other := by
  simp only [page?, drop, Assoc.get?_erase]
  split <;> rfl

theorem page?_install (pool : Pool) (page : Page) (other : PageId) :
    (pool.install page).2.page? other = if other = page.id then some page else pool.page? other := by
  simp only [page?, install, Assoc.get?_insert]
  split <;> rfl

end Pool
end RowStore
