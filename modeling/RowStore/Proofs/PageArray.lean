import RowStore.Proofs.PageRows

/-!
# Files as arrays of pages

Writing one page of a file changes the image of that page alone, and lengthens the file at most up to
its end. So the rows on disk change for one page of one table, to those of the page that was written.
-/
namespace RowStore

namespace PageFile

/-- The number of pages, which a page number need not hold. -/
def pageTotal (file : PageFile) (volume : Volume) : Nat :=
  ((volume.contents file.name).size + (file.pageSize - 1)) / file.pageSize

theorem pageCount_eq_ofNat (file : PageFile) (volume : Volume) :
    file.pageCount volume = UInt32.ofNat (file.pageTotal volume) := rfl

theorem length_image (file : PageFile) (volume : Volume) (n : PageNo) :
    (file.image volume n).length = file.pageSize := by
  rw [image_eq, Bytes.length_readAt]

theorem offset_ranges {size n m i : Nat} (hi : i < size) :
    (n * size ≤ m * size + i ∧ m * size + i < n * size + size) ↔ m = n := by
  constructor
  · rintro ⟨hle, hlt⟩
    rcases Nat.lt_trichotomy m n with h | h | h
    · have := Nat.mul_le_mul_right size (Nat.succ_le_of_lt h)
      rw [Nat.succ_mul] at this
      omega
    · exact h
    · have := Nat.mul_le_mul_right size (Nat.succ_le_of_lt h)
      rw [Nat.succ_mul] at this
      omega
  · rintro rfl
    omega

theorem image_replace (file : PageFile) (volume : Volume) (n m : PageNo) {data : Bytes}
    (hlength : data.length = file.pageSize) :
    file.image (file.replace volume n data) m = if m = n then data else file.image volume m := by
  rw [image_eq, bytes_replace, if_pos rfl, image_eq]
  apply List.ext_getElem?
  intro i
  by_cases hi : i < file.pageSize
  · rw [Bytes.getElem?_readAt _ _ _ _ hi, Bytes.byteAt_writeAt, hlength, offset, offset]
    have hrange := offset_ranges (n := n.toNat) (m := m.toNat) hi
    by_cases hm : m = n
    · rw [if_pos (hrange.mpr (congrArg UInt32.toNat hm)), if_pos hm, hm, Nat.add_sub_cancel_left,
        Bytes.byteAt, List.getElem?_eq_getElem (by omega)]
      rfl
    · rw [if_neg fun h => hm (UInt32.toNat_inj.mp (hrange.mp h)), if_neg hm,
        Bytes.getElem?_readAt _ _ _ _ hi]
  · rw [List.getElem?_eq_none (by rw [Bytes.length_readAt]; omega)]
    split
    · rw [List.getElem?_eq_none (by omega)]
    · rw [List.getElem?_eq_none (by rw [Bytes.length_readAt]; omega)]

theorem image_replace_other {file other : PageFile} (h : other.name ≠ file.name) (volume : Volume)
    (n m : PageNo) (data : Bytes) :
    other.image (file.replace volume n data) m = other.image volume m := by
  rw [image_eq, bytes_replace, if_neg h, image_eq]

theorem pageTotal_replace_other {file other : PageFile} (h : other.name ≠ file.name) (volume : Volume)
    (n : PageNo) (data : Bytes) :
    other.pageTotal (file.replace volume n data) = other.pageTotal volume := by
  rw [pageTotal, pageTotal, replace, Volume.contents_store, if_neg h]

theorem pages_max {size : Nat} (hpos : 0 < size) (length n : Nat) :
    (max length (n * size + size) + (size - 1)) / size = max ((length + (size - 1)) / size) (n + 1) := by
  have hfull : (n * size + size + (size - 1)) / size = n + 1 := by
    rw [← Nat.succ_mul, Nat.add_comm, Nat.add_mul_div_right _ _ hpos,
      Nat.div_eq_of_lt (Nat.sub_lt hpos Nat.one_pos), Nat.zero_add]
  rcases Nat.le_total length (n * size + size) with h | h
  · rw [Nat.max_eq_right h, hfull]
    refine (Nat.max_eq_right ?_).symm
    rw [← hfull]
    exact Nat.div_le_div_right (Nat.add_le_add_right h _)
  · rw [Nat.max_eq_left h]
    refine (Nat.max_eq_left ?_).symm
    rw [← hfull]
    exact Nat.div_le_div_right (Nat.add_le_add_right h _)

theorem size_replace {file : PageFile} (hpos : 0 < file.pageSize) (volume : Volume) (n : PageNo)
    {data : Bytes} (hlength : data.length = file.pageSize) :
    ((file.replace volume n data).contents file.name).size =
      max (volume.contents file.name).size (n.toNat * file.pageSize + file.pageSize) := by
  have hne : data ≠ [] := by
    intro h
    rw [h, List.length_nil] at hlength
    omega
  rw [← Contents.length_toBytes, ← Contents.length_toBytes]
  change ((file.replace volume n data).bytes file.name).length = _
  rw [bytes_replace, if_pos rfl, Bytes.length_writeAt _ _ _ hne, hlength]
  rfl

theorem pageTotal_replace {file : PageFile} (hpos : 0 < file.pageSize) (volume : Volume) (n : PageNo)
    {data : Bytes} (hlength : data.length = file.pageSize) :
    file.pageTotal (file.replace volume n data) = max (file.pageTotal volume) (n.toNat + 1) := by
  rw [pageTotal, size_replace hpos volume n hlength, pages_max hpos, pageTotal]

theorem lt_pageTotal_iff {file : PageFile} (hpos : 0 < file.pageSize) {volume : Volume} {n : Nat} :
    n < file.pageTotal volume ↔ n * file.pageSize < (volume.contents file.name).size := by
  rw [pageTotal, Nat.lt_iff_add_one_le, Nat.le_div_iff_mul_le hpos, Nat.succ_mul]
  omega

end PageFile

namespace TableFile

/-- The number of pages, which a page number need not hold. -/
def pageTotal (file : TableFile) (volume : Volume) : Nat := file.pages.pageTotal volume

theorem pageTotal_of_empty {file : TableFile} {volume : Volume}
    (h : volume.bytes file.pages.name = []) : file.pageTotal volume = 0 := by
  have hsize : (volume.contents file.pages.name).size = 0 := by
    rw [← Contents.length_toBytes]
    exact congrArg List.length h
  rw [pageTotal, PageFile.pageTotal, hsize, Nat.zero_add]
  exact Nat.div_eq_of_lt (Nat.sub_lt file.pageSize_pos Nat.one_pos)

/-- The rows that a page has on disk. -/
def rowsOnDisk (file : TableFile) (volume : Volume) (n : PageNo) : List (Option (List Field)) :=
  match file.pageOnDisk volume n with
  | .ok page => page.rows
  | .error _ => []

/-- Every page can be read. -/
theorem pageOnDisk_eq_ok (file : TableFile) (volume : Volume) (n : PageNo) :
    ∃ page, file.pageOnDisk volume n = .ok page ∧ page.id = ⟨file.id, n⟩ ∧ page.isDirty = false ∧
      page.WellFormed file ∧ page.rows = file.rowsOnDisk volume n := by
  obtain ⟨page, hpage, hid, hclean, hformed⟩ :=
    Page.wellFormed_ofImage file n (file.pages.length_image volume n)
  refine ⟨page, hpage, hid, hclean, hformed, ?_⟩
  change file.pageOnDisk volume n = .ok page at hpage
  rw [rowsOnDisk, hpage]

/-- Files of one table with pages of one size have the same pages. -/
theorem pages_eq {file other : TableFile} (hid : other.id = file.id)
    (hsize : other.pageSize = file.pageSize) : other.pages = file.pages := by
  have hname : other.pages.name = file.pages.name := TableId.file.inj hid
  have hsize : other.pages.pageSize = file.pages.pageSize := hsize
  change (⟨other.pages.name, other.pages.pageSize⟩ : PageFile) = ⟨file.pages.name, file.pages.pageSize⟩
  rw [hname, hsize]

theorem rowsOnDisk_congr {file other : TableFile} (hpages : other.pages = file.pages)
    (hagrees : other.schema.Agrees file.schema) (volume : Volume) (n : PageNo) :
    other.rowsOnDisk volume n = file.rowsOnDisk volume n := by
  obtain ⟨page, hpage, _, _, _, hrows⟩ := file.pageOnDisk_eq_ok volume n
  obtain ⟨page', hpage', _, _, _, hrows'⟩ := other.pageOnDisk_eq_ok volume n
  rw [← hrows, ← hrows']
  rw [pageOnDisk, hpages] at hpage'
  exact Page.rows_ofImage_congr hagrees hpage hpage'

theorem length_rowsOnDisk (file : TableFile) (volume : Volume) (n : PageNo) :
    (file.rowsOnDisk volume n).length = file.slotCount := by
  obtain ⟨page, _, _, _, hformed, hrows⟩ := file.pageOnDisk_eq_ok volume n
  rw [← hrows, Page.rows, List.length_map]
  exact hformed.slots

/-- A page that was written has its rows on disk, whatever the file calls its columns, and the others
have theirs. -/
theorem rowsOnDisk_replace_of_agrees {file : TableFile} {page : Page} (h : page.Shaped)
    (hagrees : page.schema.Agrees file.schema) (hsize : page.size = file.pageSize) {image : Bytes}
    (himage : page.toImage = .ok image) (volume : Volume) (n m : PageNo) :
    file.rowsOnDisk (file.pages.replace volume n image) m =
      if m = n then page.rows else file.rowsOnDisk volume m := by
  obtain ⟨hlength, hback⟩ := h.rows_ofImage himage
  have hlength : image.length = file.pages.pageSize := hlength.trans hsize
  simp only [rowsOnDisk, pageOnDisk, PageFile.image_replace _ _ _ _ hlength]
  by_cases hm : m = n
  · obtain ⟨stored, hstored, hrows⟩ := hback ⟨file.id, m⟩
    obtain ⟨read, hread, _⟩ := Page.shaped_ofImage ⟨file.id, m⟩ file.schema image
    rw [if_pos hm, if_pos hm, hread, ← hrows]
    exact Page.rows_ofImage_congr hagrees.symm hstored hread
  · rw [if_neg hm, if_neg hm]

theorem rowsOnDisk_replace {file : TableFile} {page : Page} (hformed : page.WellFormed file)
    {image : Bytes} (himage : page.toImage = .ok image) (volume : Volume) (n m : PageNo) :
    file.rowsOnDisk (file.pages.replace volume n image) m =
      if m = n then page.rows else file.rowsOnDisk volume m :=
  rowsOnDisk_replace_of_agrees hformed.shaped (congrArg Schema.types hformed.schema) hformed.size himage
    volume n m

theorem rowsOnDisk_zeros (file : TableFile) (volume : Volume) (n m : PageNo) :
    file.rowsOnDisk (file.pages.replace volume n (List.replicate file.pageSize 0)) m =
      if m = n then List.replicate file.slotCount none else file.rowsOnDisk volume m := by
  have hlength : (List.replicate file.pageSize (0 : UInt8)).length = file.pages.pageSize :=
    List.length_replicate
  simp only [rowsOnDisk, pageOnDisk, PageFile.image_replace _ _ _ _ hlength]
  by_cases h : m = n
  · obtain ⟨stored, hstored, _⟩ := Page.wellFormed_ofImage file m hlength
    rw [if_pos h, if_pos h, hstored]
    exact Page.rows_ofImage_zeros file m hstored
  · rw [if_neg h, if_neg h]

theorem rowsOnDisk_replace_other {file other : TableFile} (h : other.id ≠ file.id) (volume : Volume)
    (n m : PageNo) (image : Bytes) :
    other.rowsOnDisk (file.pages.replace volume n image) m = other.rowsOnDisk volume m := by
  have hname : other.pages.name ≠ file.pages.name := fun hname => h (congrArg TableId.file hname)
  simp only [rowsOnDisk, pageOnDisk, PageFile.image_replace_other hname]

theorem pageTotal_replace {file : TableFile} {image : Bytes} (hlength : image.length = file.pageSize)
    (volume : Volume) (n : PageNo) :
    file.pageTotal (file.pages.replace volume n image) = max (file.pageTotal volume) (n.toNat + 1) :=
  PageFile.pageTotal_replace file.pageSize_pos volume n hlength

theorem pageTotal_replace_other {file other : TableFile} (h : other.id ≠ file.id) (volume : Volume)
    (n : PageNo) (image : Bytes) :
    other.pageTotal (file.pages.replace volume n image) = other.pageTotal volume :=
  PageFile.pageTotal_replace_other (fun hname => h (congrArg TableId.file hname)) volume n image

theorem numPages_toNat_le (file : TableFile) (volume : Volume) :
    (file.numPages volume).toNat ≤ file.pageTotal volume := by
  rw [numPages, PageFile.pageCount_eq_ofNat, UInt32.toNat_ofNat']
  exact Nat.mod_le _ _

theorem numPages_toNat {file : TableFile} {volume : Volume} (h : file.pageTotal volume < UInt32.size) :
    (file.numPages volume).toNat = file.pageTotal volume := by
  rw [numPages, PageFile.pageCount_eq_ofNat]
  exact UInt32.toNat_ofNat_of_lt' h

theorem checkPage_of_counted {file : TableFile} {volume : Volume} {n : PageNo}
    (hsmall : file.pageTotal volume < UInt32.size) (hn : n.toNat < file.pageTotal volume) :
    file.checkPage volume ⟨file.id, n⟩ = .ok () := by
  apply checkPage_eq_ok.mpr ⟨rfl, _⟩
  rwa [UInt32.lt_iff_toNat_lt, numPages_toNat hsmall]

/-- A page that is one of the file's has a number below the number of pages. -/
theorem number_lt_of_checkPage {file : TableFile} {volume : Volume} {id : PageId}
    (h : file.checkPage volume id = .ok ()) :
    id.table = file.id ∧ id.number.toNat < file.pageTotal volume := by
  obtain ⟨htable, hlt⟩ := checkPage_eq_ok.mp h
  exact ⟨htable, Nat.lt_of_lt_of_le (UInt32.lt_iff_toNat_lt.mp hlt) (file.numPages_toNat_le volume)⟩

end TableFile
end RowStore
