import RowStore.Database.Storage

/-!
# Cached pages

Pages are used through the pool. A miss reads the page from disk and admits it, after the oldest
cached page has been written back if it was dirty and then dropped. A changed page is marked with
the transaction that changed it; completing a transaction writes its pages back, or drops them so
that the next use reads them from disk again.
-/
namespace RowStore.Database

/-- Writes a cached page to the registered file of its table if it is dirty, and marks it clean. -/
def writeBack (id : PageId) : Db Bool := do
  match (← get).pool.page? id with
  | none => return false
  | some page =>
    if page.isDirty then
      writePage (← fileOf page.id.table) page
      modify fun db => { db with pool := db.pool.modify id Page.markClean }
      return true
    else return false

theorem writeBack_of_missing {db : Database} {id : PageId} (h : db.pool.page? id = none) :
    writeBack id db = .ok false db := by
  simp only [writeBack, Db.bind_run, Db.get_run, h, Db.pure_run]

theorem writeBack_of_clean {db : Database} {id : PageId} {page : Page}
    (h : db.pool.page? id = some page) (hclean : page.isDirty = false) :
    writeBack id db = .ok false db := by
  simp only [writeBack, Db.bind_run, Db.get_run, h, hclean, Bool.false_eq_true, if_false, Db.pure_run]

/-- Makes room by writing back and dropping the page at the front of the queue. -/
def evict : Db Unit := do
  match (← get).pool.queue.victim? with
  | none => throw (.error (.poolExhausted (← get).pool.capacity))
  | some victim =>
    let _ ← writeBack victim
    modify fun db => { db with pool := db.pool.drop victim }

/-- Makes room when the pool is full. -/
def makeRoom : Db Unit := fun db => if db.pool.capacity ≤ db.pool.size then evict db else .ok () db

/-- Puts a page that was read into a new frame of the pool, which has room. -/
def place (page : Page) : Db Frame := fun db =>
  .ok (db.pool.install page).1 { db with pool := (db.pool.install page).2 }

def install (page : Page) : Db Frame := do
  makeRoom
  place page

/-- The frame of a page, which is read from disk if it is not cached. -/
def fetch (id : PageId) : Db Frame := do
  match (← get).pool.frames.get? id with
  | some frame => return frame
  | none =>
    let page ← readPage (← fileOf id.table) id
    install page

/-- A hit changes nothing. -/
theorem fetch_of_cached {db : Database} {id : PageId} {frame : Frame}
    (h : db.pool.frames.get? id = some frame) : fetch id db = .ok frame db := by
  simp only [fetch, Db.bind_run, Db.get_run, h, Db.pure_run]

theorem fetch_of_missing {db : Database} {id : PageId} {file : TableFile}
    (h : db.pool.frames.get? id = none) (hfile : db.catalog.file id.table = .ok file) :
    fetch id db =
      match readPage file id db with
      | .ok page db => install page db
      | .error e db => .error e db := by
  simp only [fetch, Db.bind_run, Db.get_run, h, fileOf_of_registered hfile]
  cases readPage file id db <;> rfl

theorem fetch_of_unregistered {db : Database} {id : PageId} {e : StoreError}
    (h : db.pool.frames.get? id = none) (hfile : db.catalog.file id.table = .error e) :
    fetch id db = .error (.error e) db := by
  simp only [fetch, Db.bind_run, Db.get_run, h, fileOf_of_missing hfile]

/-- Changes a cached page in its frame. An edit that fails leaves its first steps in the page and
does not mark it. -/
def editFrame (txn : TransactionId) (id : PageId) (frame : Frame) (edit : PageEdit Unit) :
    Db Frame := fun db =>
  match edit frame.page with
  | .ok () page =>
    let page := page.markDirty txn
    .ok { frame with page } { db with pool := db.pool.modify id fun _ => page }
  | .error e page => .error (.error e) { db with pool := db.pool.modify id fun _ => page }

/-- Fetches a page, changes it and marks it with the transaction. -/
def update (txn : TransactionId) (id : PageId) (edit : PageEdit Unit) : Db Frame := do
  editFrame txn id (← fetch id) edit

/-- Writes back those of the pages that are dirty, up to the first that cannot be written. -/
def writeAll (ids : List PageId) : Db Unit := ids.forM fun id => do
  let _ ← writeBack id

/-- Writes back all dirty pages, oldest first. -/
def flushAll : Db Unit := do
  writeAll (← get).pool.frames.keys

/-- Writes a page back if it is dirty, and says whether it was cached. -/
def flushPage (id : PageId) : Db Bool := do
  if (← get).pool.isCached id then
    let _ ← writeBack id
    return true
  else return false

/-- Writes back the pages that the transaction changed last. -/
def flushTransaction (txn : TransactionId) : Db Unit := do
  writeAll (((← get).pool.dirtiedBy txn).map Prod.fst)

/-- Drops a page without writing it. -/
def discard (id : PageId) : Db Unit := modify fun db => { db with pool := db.pool.drop id }

/-- Ends a transaction: a commit writes its pages back, an abort drops them. -/
def complete (txn : TransactionId) (commit : Bool) : Db Unit := do
  if commit then flushTransaction txn
  else (((← get).pool.dirtiedBy txn).map fun entry => entry.2.page.id).forM discard

/-- Pages are never locked. -/
def holdsLock (_ : Database) (_ : TransactionId) (_ : PageId) : Bool := false

end RowStore.Database
