import RowStore.Database.Basic

/-!
# Pages on disk

Reading a page parses its image and counts one read; writing a page stores its image and counts one
write. Neither touches the pool.
-/
namespace RowStore.Database

/-- Counts a transfer through the file. -/
def countTransfer (db : Database) (file : TableFile) (change : Traffic → Traffic) : Database :=
  { db with traffic := db.traffic.modify file.serial change }

/-- Reads a page of the file from disk. -/
def readPage (file : TableFile) (page : PageId) : Db Page := fun db =>
  match file.checkPage db.volume page with
  | .error e => .error (.error e) db
  | .ok () => lift (file.pageOnDisk db.volume page.number) (countTransfer db file Traffic.countRead)

/-- Puts the bytes of one page into the file. -/
def writeImage (file : TableFile) (page : PageNo) (image : Bytes) : Db Unit := fun db =>
  match file.pages.write db.volume page image with
  | .error breach => .error (.violation breach) db
  | .ok volume => .ok () (countTransfer { db with volume } file Traffic.countWrite)

/-- Writes a page of the file to disk; a page of another table is refused. -/
def writePage (file : TableFile) (page : Page) : Db Unit := do
  unless page.id.table = file.id do throw (.error (.tableNotFound page.id.table))
  writeImage file page.id.number (← lift page.toImage)

end RowStore.Database
