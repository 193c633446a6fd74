import RowStore.Bytes.Access

/-!
# The contents of a file

The contents of a file are extents in a row, each some stored bytes and then zeros, so a gap that was
never written takes no room. The view is the list of all bytes; the main statements say that reading
and writing do to it what they do to a list of bytes.
-/
namespace RowStore

/-- A run of `size` bytes: those stored, as far as they go, and then zeros. -/
structure Extent where
  size : Nat
  stored : Bytes
  deriving DecidableEq

abbrev Contents := List Extent

namespace Extent

def toBytes (extent : Extent) : Bytes := Bytes.readAt extent.stored 0 extent.size

def ofBytes (data : Bytes) : Extent := ⟨data.length, data⟩

/-- A run of zeros. -/
def gap (size : Nat) : Extent := ⟨size, []⟩

def take (n : Nat) (extent : Extent) : Extent := ⟨min n extent.size, extent.stored⟩

def drop (n : Nat) (extent : Extent) : Extent := ⟨extent.size - n, extent.stored.drop n⟩

@[simp] theorem length_toBytes (extent : Extent) : extent.toBytes.length = extent.size :=
  Bytes.length_readAt _ _ _

theorem toBytes_ofBytes (data : Bytes) : (ofBytes data).toBytes = data := by
  simp [toBytes, ofBytes, Bytes.readAt]

theorem toBytes_gap (size : Nat) : (gap size).toBytes = List.replicate size 0 := by
  simp [toBytes, gap, Bytes.readAt]

theorem toBytes_take (n : Nat) (extent : Extent) :
    (extent.take n).toBytes = extent.toBytes.take n := by
  refine List.ext_getElem? fun i => ?_
  simp only [toBytes, take]
  by_cases h : i < min n extent.size
  · rw [Bytes.getElem?_readAt _ _ _ _ h, List.getElem?_take_of_lt (by omega),
      Bytes.getElem?_readAt _ _ _ _ (by omega)]
  · rw [List.getElem?_eq_none (by rw [Bytes.length_readAt]; omega),
      List.getElem?_eq_none (by rw [List.length_take, Bytes.length_readAt]; omega)]

theorem toBytes_drop (n : Nat) (extent : Extent) :
    (extent.drop n).toBytes = extent.toBytes.drop n := by
  refine List.ext_getElem? fun i => ?_
  simp only [toBytes, drop, List.getElem?_drop]
  by_cases h : n + i < extent.size
  · rw [Bytes.getElem?_readAt _ _ _ _ (by omega), Bytes.getElem?_readAt _ _ _ _ h]
    simp only [Bytes.byteAt, List.getElem?_drop, Nat.zero_add]
  · rw [List.getElem?_eq_none (by rw [Bytes.length_readAt]; omega),
      List.getElem?_eq_none (by rw [Bytes.length_readAt]; omega)]

end Extent

namespace Contents

/-- All bytes of the file. -/
def toBytes : Contents → Bytes
  | [] => []
  | extent :: rest => extent.toBytes ++ toBytes rest

def ofBytes (data : Bytes) : Contents := [Extent.ofBytes data]

def size : Contents → Nat
  | [] => 0
  | extent :: rest => extent.size + size rest

/-- The first `n` bytes. -/
def take (n : Nat) : Contents → Contents
  | [] => []
  | extent :: rest =>
    if n = 0 then []
    else if extent.size ≤ n then extent :: take (n - extent.size) rest
    else [extent.take n]

/-- All but the first `n` bytes. -/
def drop (n : Nat) : Contents → Contents
  | [] => []
  | extent :: rest =>
    if extent.size ≤ n then drop (n - extent.size) rest else extent.drop n :: rest

/-- `length` bytes from `offset` on, filled up with zeros. -/
def readAt (contents : Contents) (offset length : Nat) : Bytes :=
  Bytes.readAt (take length (drop offset contents)).toBytes 0 length

/-- The data in place of the bytes from `offset` on, behind a gap if the file ends before. -/
def writeAt (contents : Contents) (offset : Nat) (data : Bytes) : Contents :=
  if data.isEmpty then contents
  else
    take offset contents ++
      (if contents.size < offset then [Extent.gap (offset - contents.size)] else []) ++
      Extent.ofBytes data :: drop (offset + data.length) contents

@[simp] theorem length_toBytes (contents : Contents) : contents.toBytes.length = contents.size := by
  induction contents with
  | nil => rfl
  | cons extent rest ih => rw [toBytes, size, List.length_append, Extent.length_toBytes, ih]

theorem toBytes_ofBytes (data : Bytes) : (ofBytes data).toBytes = data := by
  rw [ofBytes, toBytes, toBytes, List.append_nil, Extent.toBytes_ofBytes]

theorem toBytes_append (contents rest : Contents) :
    toBytes (contents ++ rest) = contents.toBytes ++ rest.toBytes := by
  induction contents with
  | nil => rfl
  | cons extent contents ih => rw [List.cons_append, toBytes, toBytes, ih, List.append_assoc]

theorem toBytes_take (n : Nat) (contents : Contents) :
    (take n contents).toBytes = contents.toBytes.take n := by
  induction contents generalizing n with
  | nil => simp [take, toBytes]
  | cons extent rest ih =>
    rw [take]
    split
    · next h => rw [h, List.take_zero, toBytes]
    · split
      · next h =>
        have hall : extent.toBytes.take n = extent.toBytes :=
          List.take_of_length_le (by rwa [Extent.length_toBytes])
        rw [toBytes, ih, toBytes, List.take_append, Extent.length_toBytes, hall]
      · next h =>
        rw [toBytes, toBytes, List.append_nil, Extent.toBytes_take, toBytes,
          List.take_append_of_le_length (by rw [Extent.length_toBytes]; omega)]

theorem toBytes_drop (n : Nat) (contents : Contents) :
    (drop n contents).toBytes = contents.toBytes.drop n := by
  induction contents generalizing n with
  | nil => simp [drop, toBytes]
  | cons extent rest ih =>
    rw [drop]
    split
    · next h =>
      have hnone : extent.toBytes.drop n = [] :=
        List.drop_eq_nil_of_le (by rwa [Extent.length_toBytes])
      rw [ih, toBytes, List.drop_append, Extent.length_toBytes, hnone, List.nil_append]
    · next h =>
      rw [toBytes, toBytes, Extent.toBytes_drop,
        List.drop_append_of_le_length (by rw [Extent.length_toBytes]; omega)]

theorem readAt_eq (contents : Contents) (offset length : Nat) :
    contents.readAt offset length = Bytes.readAt contents.toBytes offset length := by
  rw [readAt, toBytes_take, toBytes_drop, Bytes.readAt, List.drop_zero, List.take_take, Nat.min_self,
    Bytes.readAt]

theorem toBytes_writeAt (contents : Contents) (offset : Nat) (data : Bytes) :
    (contents.writeAt offset data).toBytes = Bytes.writeAt contents.toBytes offset data := by
  have hgap : toBytes (if contents.size < offset then [Extent.gap (offset - contents.size)] else []) =
      List.replicate (offset - contents.size) 0 := by
    split
    · rw [toBytes, toBytes, List.append_nil, Extent.toBytes_gap]
    · rw [Nat.sub_eq_zero_of_le (by omega)]
      rfl
  unfold writeAt Bytes.writeAt
  split
  · rfl
  · rw [toBytes_append, toBytes_append, toBytes_take, hgap, toBytes, Extent.toBytes_ofBytes,
      toBytes_drop, length_toBytes, List.append_assoc, List.append_assoc, List.append_assoc]

end Contents
end RowStore
