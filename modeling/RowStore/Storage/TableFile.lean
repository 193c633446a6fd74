import RowStore.Page.Image
import RowStore.Storage.PageFile

/-!
# Table files

A table file keeps the pages of one table in a file. Its pages hold at least one tuple and no more
than a slot number can name, which opening a file checks. Files opened separately are told apart by
a serial number even when they share a path.
-/
namespace RowStore

structure TableFile where
  serial : Nat
  pages : PageFile
  schema : Schema
  slotCount_pos : 0 < Layout.slotCount schema.size pages.pageSize
  slotCount_le : Layout.slotCount schema.size pages.pageSize ≤ Layout.maxSlots
  deriving DecidableEq

namespace TableFile

/-- The table kept in the file is named by the file. The path stands for the number that it is hashed
to: the files in use are assumed to have distinct numbers. -/
def id (file : TableFile) : TableId := .file file.pages.name

def pageSize (file : TableFile) : Nat := file.pages.pageSize

def numPages (file : TableFile) (volume : Volume) : UInt32 := file.pages.pageCount volume

/-- The page is one of the file's. -/
def checkPage (file : TableFile) (volume : Volume) (page : PageId) : Except StoreError Unit :=
  let numPages := file.numPages volume
  if page.table = file.id ∧ page.number < numPages then .ok ()
  else .error (.pageNotFound page numPages)

/-- The page as its bytes on the volume have it. -/
def pageOnDisk (file : TableFile) (volume : Volume) (page : PageNo) : Except StoreError Page :=
  Page.ofImage ⟨file.id, page⟩ file.schema (file.pages.image volume page)

theorem checkPage_eq_ok {file : TableFile} {volume : Volume} {page : PageId} :
    file.checkPage volume page = .ok () ↔
      page.table = file.id ∧ page.number < file.numPages volume := by
  simp only [checkPage]
  split
  · next h => simp [h]
  · next h => simp [h]

/-- Pages of no bytes hold no slots. -/
theorem pageSize_pos (file : TableFile) : 0 < file.pageSize := by
  refine Nat.pos_of_ne_zero fun h => ?_
  have hpos := file.slotCount_pos
  simp only [pageSize] at h
  rw [h, Layout.slotCount, Nat.zero_mul, Nat.zero_div] at hpos
  exact Nat.lt_irrefl 0 hpos

end TableFile
end RowStore
