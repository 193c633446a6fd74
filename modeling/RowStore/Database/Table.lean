import RowStore.Database.Cache

/-!
# Tuples in tables

An insert goes to the first page with a free slot, page by page from the front; when every page is
full, an empty page is appended to the file and takes the tuple. A delete goes to the page that the
tuple's record names. Both change pages in the pool only, the appended empty page apart.
-/
namespace RowStore.Database

/-- The page edit that inserts a tuple. -/
def insertEdit (t : Tuple) : PageEdit Unit := do
  let _ ← Page.insert t

/-- Appends an empty page to the file and inserts the tuple there. -/
def appendWith (file : TableFile) (txn : TransactionId) (t : Tuple) (page : PageNo) :
    Db (List Frame) := do
  writeImage file page (List.replicate file.pageSize 0)
  return [← update txn ⟨file.id, page⟩ (insertEdit t)]

/-- Inserts the tuple into the first page with a free slot, of the `left` pages from number `page` on,
or else into a new page behind them. -/
def insertAmong (file : TableFile) (txn : TransactionId) (t : Tuple) (page : Nat) :
    (left : Nat) → Db (List Frame)
  | 0 => appendWith file txn t (UInt32.ofNat page)
  | left + 1 => do
    let id : PageId := ⟨file.id, UInt32.ofNat page⟩
    let frame ← fetch id
    if 0 < frame.page.numEmptySlots then
      return [← update txn id (insertEdit t)]
    else insertAmong file txn t (page + 1) left

/-- Inserts a tuple into the file and answers the pages that it changed. -/
def insertInto (file : TableFile) (txn : TransactionId) (t : Tuple) : Db (List Frame) := do
  unless t.schema.Agrees file.schema do
    throw (.error (.schemaMismatch file.schema.text t.schema.text))
  insertAmong file txn t 0 (file.numPages (← get).volume).toNat

/-- Deletes the tuple that the record names and answers the pages that it changed. -/
def deleteFrom (file : TableFile) (txn : TransactionId) (t : Tuple) : Db (List Frame) := do
  match t.record with
  | none => throw (.error .missingRecordId)
  | some record =>
    lift (file.checkPage (← get).volume record.page)
    return [← update txn record.page (Page.delete t)]

/-- Inserts a tuple into a registered table. -/
def insertTuple (txn : TransactionId) (table : TableId) (t : Tuple) : Db Unit := do
  let _ ← insertInto (← fileOf table) txn t

/-- Deletes a stored tuple from the registered table that its record names. -/
def deleteTuple (txn : TransactionId) (t : Tuple) : Db Unit := do
  match t.record with
  | none => throw (.error .missingRecordId)
  | some record =>
    let _ ← deleteFrom (← fileOf record.page.table) txn t

end RowStore.Database
