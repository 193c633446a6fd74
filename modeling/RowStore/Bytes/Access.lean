import RowStore.Bytes.Word

/-!
# Reading and writing bytes at an offset

A sequence of bytes is read and written at any offset: past its end it reads as zeros, and writing
there fills the gap with zeros. The main statements say which bytes a write changes.
-/
namespace RowStore.Bytes

/-- The byte at a position, zero past the end. -/
def byteAt (file : Bytes) (i : Nat) : UInt8 := file[i]?.getD 0

/-- `length` bytes from `offset` on, filled up with zeros. -/
def readAt (file : Bytes) (offset length : Nat) : Bytes :=
  let data := (file.drop offset).take length
  data ++ List.replicate (length - data.length) 0

/-- The data in place of the bytes from `offset` on; writing nothing leaves the file as it is. -/
def writeAt (file : Bytes) (offset : Nat) (data : Bytes) : Bytes :=
  if data.isEmpty then file
  else file.take offset ++ List.replicate (offset - file.length) 0 ++ data ++
    file.drop (offset + data.length)

@[simp] theorem length_readAt (file : Bytes) (offset length : Nat) :
    (readAt file offset length).length = length := by
  simp only [readAt, List.length_append, List.length_replicate, List.length_take]
  omega

theorem getElem?_readAt (file : Bytes) (offset length i : Nat) (h : i < length) :
    (readAt file offset length)[i]? = some (byteAt file (offset + i)) := by
  simp only [readAt, byteAt]
  by_cases hi : offset + i < file.length
  · rw [List.getElem?_append_left (by rw [List.length_take, List.length_drop]; omega),
      List.getElem?_take_of_lt h, List.getElem?_drop, List.getElem?_eq_getElem hi]
    rfl
  · rw [List.getElem?_append_right (by rw [List.length_take, List.length_drop]; omega),
      List.getElem?_replicate, if_pos (by simp only [List.length_take, List.length_drop]; omega),
      List.getElem?_eq_none (by omega)]
    rfl

theorem length_writeAt (file : Bytes) (offset : Nat) (data : Bytes) (h : data ≠ []) :
    (writeAt file offset data).length = max file.length (offset + data.length) := by
  have hne : data.isEmpty = false := by simpa using h
  simp only [writeAt, hne, Bool.false_eq_true, if_false, List.length_append, List.length_take,
    List.length_replicate, List.length_drop]
  omega

/-- A write changes the bytes in its range and no others. -/
theorem byteAt_writeAt (file : Bytes) (offset : Nat) (data : Bytes) (i : Nat) :
    byteAt (writeAt file offset data) i =
      if offset ≤ i ∧ i < offset + data.length then byteAt data (i - offset) else byteAt file i := by
  unfold writeAt
  by_cases hdata : data.isEmpty = true
  · have : data = [] := by simpa using hdata
    subst this
    rw [if_pos hdata, if_neg (by simp)]
  rw [if_neg hdata]
  have hgap : (file.take offset ++ List.replicate (offset - file.length) 0).length = offset := by
    simp only [List.length_append, List.length_take, List.length_replicate]
    omega
  unfold byteAt
  by_cases hlow : i < offset
  · rw [if_neg (by omega), List.append_assoc _ data, List.getElem?_append_left (by omega)]
    by_cases hi : i < file.length
    · rw [List.getElem?_append_left (by rw [List.length_take]; omega), List.getElem?_take_of_lt hlow]
    · rw [List.getElem?_append_right (by rw [List.length_take]; omega), List.getElem?_replicate,
        if_pos (by rw [List.length_take]; omega), List.getElem?_eq_none (by omega)]
      rfl
  · by_cases hmid : i < offset + data.length
    · rw [if_pos ⟨by omega, hmid⟩, List.append_assoc _ data, List.getElem?_append_right (by omega),
        List.getElem?_append_left (by omega), hgap]
    · rw [if_neg (by omega), List.getElem?_append_right (by rw [List.length_append]; omega),
        List.length_append, hgap, List.getElem?_drop]
      congr 2
      omega

end RowStore.Bytes
