import RowStore.Error
import RowStore.Volume.Basic

/-!
# Files of pages

A file is cut into pages of one size. A transfer moves exactly one page; pages past the end read as
zeros, and writing one lengthens the file up to the end of that page. A last page may be partial, so
the number of pages rounds up.
-/
namespace RowStore

/-- A named file seen as an array of pages. -/
structure PageFile where
  name : String
  pageSize : Nat
  deriving DecidableEq

/-- The page transfers made through one open file; the counters are words and wrap around. -/
structure Traffic where
  reads : UInt32 := 0
  writes : UInt32 := 0
  deriving DecidableEq, Repr

namespace PageFile

/-- Where the page begins. For pages of at most 2^32 bytes the page ends within 2^64 bytes, so that this
product has 64 bits; for larger ones it is taken as it is. -/
def offset (file : PageFile) (page : PageNo) : Nat := page.toNat * file.pageSize

/-- The number of pages, counting a partial last one, as a page number holds it. -/
def pageCount (file : PageFile) (volume : Volume) : UInt32 :=
  UInt32.ofNat (((volume.contents file.name).size + (file.pageSize - 1)) / file.pageSize)

/-- The number of pages; pages of no bytes cannot be counted. -/
def numPages (file : PageFile) (volume : Volume) : Except Violation UInt32 :=
  if file.pageSize = 0 then .error .divisionByZero else .ok (file.pageCount volume)

/-- The bytes of a page. -/
def image (file : PageFile) (volume : Volume) (page : PageNo) : Bytes :=
  (volume.contents file.name).readAt (file.offset page) file.pageSize

/-- The volume after the data were put in the place of a page. -/
def replace (file : PageFile) (volume : Volume) (page : PageNo) (data : Bytes) : Volume :=
  volume.store file.name ((volume.contents file.name).writeAt (file.offset page) data)

/-- Fills a buffer of `length` bytes with a page. -/
def read (file : PageFile) (volume : Volume) (page : PageNo) (length : Nat) :
    Except Violation Bytes :=
  if length = file.pageSize then .ok (file.image volume page)
  else .error (.wrongLength file.pageSize length)

def write (file : PageFile) (volume : Volume) (page : PageNo) (data : Bytes) :
    Except Violation Volume :=
  if data.length = file.pageSize then .ok (file.replace volume page data)
  else .error (.wrongLength file.pageSize data.length)

theorem image_eq (file : PageFile) (volume : Volume) (page : PageNo) :
    file.image volume page =
      Bytes.readAt (volume.bytes file.name) (file.offset page) file.pageSize :=
  Contents.readAt_eq _ _ _

/-- Replacing a page writes its bytes in the file and leaves the other files. -/
theorem bytes_replace (file : PageFile) (volume : Volume) (page : PageNo) (data : Bytes)
    (name : String) :
    (file.replace volume page data).bytes name =
      if name = file.name then Bytes.writeAt (volume.bytes name) (file.offset page) data
      else volume.bytes name := by
  rw [replace, Volume.bytes_store]
  split
  · next h => rw [h, Contents.toBytes_writeAt, Volume.bytes]
  · rfl

end PageFile

namespace Traffic

def countRead (traffic : Traffic) : Traffic := { traffic with reads := traffic.reads + 1 }

def countWrite (traffic : Traffic) : Traffic := { traffic with writes := traffic.writes + 1 }

end Traffic
end RowStore
