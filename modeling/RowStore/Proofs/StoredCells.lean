import RowStore.Proofs.PageRows

/-!
# The cells of a page image

A slot of a page image is cut into cells, one for each column, and a slot is in use when the bitmap
at the front of the image marks it. The main statement gives the page that is read from any image:
each slot in use holds the values of its cells, and all other slots are free.
-/
namespace RowStore

namespace Text

/-- The bytes are UTF-8. -/
def IsValid (data : Bytes) : Prop := data.toByteArray.IsValidUTF8

theorem isValid_encode (text : String) : IsValid (encode text) := ⟨text.toList, rfl⟩

theorem encode_decode {data : Bytes} (h : IsValid data) : encode (decode data) = data := by
  obtain ⟨chars, hchars⟩ := h
  have hdata : data = encode (String.ofList chars) := by
    rw [encode, String.toList_ofList]
    exact List.toByteArray_inj.mp hchars
  rw [hdata, decode_encode]

end Text

theorem Word.decode_take {data : Bytes} {n : Nat} (h : 4 ≤ n) : decode (data.take n) = decode data := by
  obtain ⟨n, rfl⟩ := Nat.exists_eq_add_of_le' h
  match data with
  | [] | [_] | [_, _] | [_, _, _] => rfl
  | _ :: _ :: _ :: _ :: _ => rfl

/-- The bytes that one column takes in a slot. -/
structure Cell where
  type : ColumnType
  data : Bytes

namespace Cell

/-- The cells of a slot, one for each column. -/
def cut : List ColumnType → Bytes → List Cell
  | [], _ => []
  | type :: types, data => ⟨type, data.take type.size⟩ :: cut types (data.drop type.size)

/-- The bytes that are read as text: as many as the length word says, and at most the width. -/
def textBytes (cell : Cell) : Bytes :=
  match cell.type with
  | .integer => []
  | .char width => (cell.data.drop 4).take (min (Word.decode cell.data) width.toNat)

/-- The value that is read from the cell. -/
def value (cell : Cell) : Field :=
  match cell.type with
  | .integer => .int (Word.decodeInt cell.data)
  | .char _ => .str (Text.decode cell.textBytes)

/-- The text of the cell is UTF-8. -/
def IsText (cell : Cell) : Prop := Text.IsValid cell.textBytes

theorem map_type_cut (types : List ColumnType) (data : Bytes) : (cut types data).map type = types := by
  induction types generalizing data with
  | nil => rfl
  | cons type types ih => rw [cut, List.map_cons, ih]

theorem length_of_mem_cut {types : List ColumnType} {data : Bytes}
    (h : ColumnType.totalSize types ≤ data.length) {cell : Cell} (hcell : cell ∈ cut types data) :
    cell.data.length = cell.type.size := by
  induction types generalizing data with
  | nil => cases hcell
  | cons type types ih =>
    rw [ColumnType.totalSize] at h
    rcases List.mem_cons.mp hcell with rfl | hcell
    · exact List.length_take_of_le (by omega)
    · exact ih (by rw [List.length_drop]; omega) hcell

theorem flatMap_data_cut {types : List ColumnType} {data : Bytes}
    (h : data.length = ColumnType.totalSize types) : (cut types data).flatMap Cell.data = data := by
  induction types generalizing data with
  | nil => exact (List.eq_nil_of_length_eq_zero h).symm
  | cons type types ih =>
    rw [ColumnType.totalSize] at h
    rw [cut, List.flatMap_cons, ih (by rw [List.length_drop]; omega), List.take_append_drop]

theorem length_textBytes {cell : Cell} {width : UInt16} (htype : cell.type = .char width)
    (h : cell.data.length = cell.type.size) :
    cell.textBytes.length = min (Word.decode cell.data) width.toNat := by
  rw [htype, ColumnType.size] at h
  simp only [textBytes, htype, List.length_take, List.length_drop]
  omega

theorem decode_eq_value {type : ColumnType} {data : Bytes} (h : type.size ≤ data.length) :
    Field.decode type data = some (value ⟨type, data.take type.size⟩) := by
  unfold Field.decode
  rw [if_neg (Nat.not_lt.mpr h)]
  cases type with
  | integer => simp only [value, Word.decodeInt, ColumnType.size, Word.decode_take (Nat.le_refl 4)]
  | char width =>
    have hrest (n : Nat) (hn : n ≤ width.toNat) :
        ((data.take (4 + width.toNat)).drop 4).take n = (data.drop 4).take n := by
      rw [List.drop_take, Nat.add_sub_cancel_left, List.take_take, Nat.min_eq_left hn]
    simp only [value, textBytes, ColumnType.size, Word.decode_take (Nat.le_add_right 4 _)]
    rw [hrest _ (Nat.min_le_right _ _)]

theorem decodeFields_eq_values {types : List ColumnType} {data : Bytes}
    (h : ColumnType.totalSize types ≤ data.length) :
    Tuple.decodeFields types data = some ((cut types data).map value) := by
  induction types generalizing data with
  | nil => rfl
  | cons type types ih =>
    rw [ColumnType.totalSize] at h
    have hrest : ColumnType.totalSize types ≤ (data.drop type.size).length := by
      rw [List.length_drop]
      omega
    rw [Tuple.decodeFields, decode_eq_value (by omega)]
    dsimp only
    rw [ih hrest]
    rfl

end Cell

namespace Layout

/-- The bitmap of the image marks the slot. -/
def inUse (tupleSize : Nat) (image : Bytes) (slot : Nat) : Bool :=
  slot < slotCount tupleSize image.length && (Bitmap.mk image).get slot

/-- Where the slots of an image begin. -/
def start (tupleSize : Nat) (image : Bytes) : Nat := headerSize (slotCount tupleSize image.length)

/-- Where the slots of an image end. -/
def stop (tupleSize : Nat) (image : Bytes) : Nat :=
  start tupleSize image + slotCount tupleSize image.length * tupleSize

/-- The bytes of a slot of an image. -/
def slotBytes (tupleSize : Nat) (image : Bytes) (slot : Nat) : Bytes :=
  (image.drop (start tupleSize image + slot * tupleSize)).take tupleSize

theorem stop_le (tupleSize : Nat) (image : Bytes) : stop tupleSize image ≤ image.length :=
  headerSize_add_slots_le tupleSize image.length

theorem start_le (tupleSize : Nat) (image : Bytes) : start tupleSize image ≤ image.length :=
  Nat.le_trans (Nat.le_add_right _ _) (stop_le tupleSize image)

theorem slot_end_le {tupleSize slot : Nat} {image : Bytes} (h : slot < slotCount tupleSize image.length) :
    start tupleSize image + slot * tupleSize + tupleSize ≤ image.length := by
  rw [Nat.add_assoc, ← Nat.succ_mul]
  exact slot_succ_le h

theorem lt_of_inUse {tupleSize slot : Nat} {image : Bytes} (h : inUse tupleSize image slot = true) :
    slot < slotCount tupleSize image.length := by
  rw [inUse, Bool.and_eq_true, decide_eq_true_eq] at h
  exact h.1

theorem length_slotBytes {tupleSize slot : Nat} {image : Bytes}
    (h : slot < slotCount tupleSize image.length) :
    (slotBytes tupleSize image slot).length = tupleSize := by
  have hend := slot_end_le h
  rw [slotBytes, List.length_take, List.length_drop]
  omega

theorem bit_lt_headerSize {count slot : Nat} (h : slot < count) : slot / 8 < headerSize count := by
  rw [headerSize]
  omega

theorem get_take_start {tupleSize slot : Nat} {image : Bytes}
    (h : slot < slotCount tupleSize image.length) :
    (Bitmap.mk (image.take (start tupleSize image))).get slot = (Bitmap.mk image).get slot := by
  simp only [Bitmap.get, start, List.getElem?_take_of_lt (bit_lt_headerSize h)]

end Layout

namespace Schema

/-- The cells of a slot of an image. -/
def cells (schema : Schema) (image : Bytes) (slot : Nat) : List Cell :=
  Cell.cut schema.types (Layout.slotBytes schema.size image slot)

/-- Every cell of a slot in use has the property. -/
def EachCell (schema : Schema) (image : Bytes) (P : Cell → Prop) : Prop :=
  ∀ slot, Layout.inUse schema.size image slot = true → ∀ cell ∈ schema.cells image slot, P cell

instance (schema : Schema) (image : Bytes) (P : Cell → Prop) [DecidablePred P] :
    Decidable (schema.EachCell image P) :=
  decidable_of_iff
    (∀ slot < Layout.slotCount schema.size image.length, Layout.inUse schema.size image slot = true →
      ∀ cell ∈ schema.cells image slot, P cell)
    ⟨fun h slot hused => h slot (Layout.lt_of_inUse hused) hused, fun h slot _ => h slot⟩

theorem map_type_cells (schema : Schema) (image : Bytes) (slot : Nat) :
    (schema.cells image slot).map Cell.type = schema.types :=
  Cell.map_type_cut _ _

theorem length_of_mem_cells {schema : Schema} {image : Bytes} {slot : Nat}
    (h : slot < Layout.slotCount schema.size image.length) {cell : Cell}
    (hcell : cell ∈ schema.cells image slot) : cell.data.length = cell.type.size :=
  Cell.length_of_mem_cut (Nat.le_of_eq (Layout.length_slotBytes h).symm) hcell

end Schema

namespace Page

/-- What is read from a slot of the image. -/
def storedSlot (id : PageId) (schema : Schema) (image : Bytes) (slot : Nat) : Option Tuple :=
  if Layout.inUse schema.size image slot then
    some { schema
           fields := (schema.cells image slot).map Cell.value
           record := some ⟨id, UInt16.ofNat slot⟩ }
  else none

/-- The page that is read from the image. -/
def stored (id : PageId) (schema : Schema) (image : Bytes) : Page :=
  { id, schema
    size := image.length
    header := ⟨image.take (Layout.start schema.size image)⟩
    slots := (List.range (Layout.slotCount schema.size image.length)).map (storedSlot id schema image) }

theorem decodeSlots_eq (id : PageId) (schema : Schema) (first : Nat) (bits : List Bool) (data : Bytes)
    (h : bits.length * schema.size ≤ data.length) :
    decodeSlots id schema first bits data = .ok (bits.mapIdx fun i used =>
      if used then
        some { schema
               fields := (Cell.cut schema.types ((data.drop (i * schema.size)).take schema.size)).map
                 Cell.value
               record := some ⟨id, UInt16.ofNat (first + i)⟩ }
      else none) := by
  -- A free slot's bytes are passed over as well, so place and number of the next one go on alike.
  induction bits generalizing first data with
  | nil => rfl
  | cons used bits ih =>
    rw [List.length_cons, Nat.succ_mul] at h
    have hrest := ih (first + 1) (data.drop schema.size) (by rw [List.length_drop]; omega)
    have hnext (i : Nat) : schema.size + i * schema.size = (i + 1) * schema.size := by
      rw [Nat.succ_mul, Nat.add_comm]
    have hnumber (i : Nat) : first + 1 + i = first + (i + 1) := by omega
    simp only [List.drop_drop, hnext, hnumber] at hrest
    rw [decodeSlots, hrest, List.mapIdx_cons]
    cases used with
    | false => rfl
    | true =>
      have hsize : schema.size ≤ data.length := by omega
      have hfits : ColumnType.totalSize schema.types ≤ (data.take schema.size).length :=
        Nat.le_of_eq (List.length_take_of_le hsize).symm
      simp only [if_true, Tuple.decode, Cell.decodeFields_eq_values hfits, Option.map_some,
        Nat.zero_mul, List.drop_zero, Nat.add_zero]
      rfl

/-- Every image is read, each slot in use as the values of its cells. -/
theorem ofImage_eq (id : PageId) (schema : Schema) (image : Bytes) :
    ofImage id schema image = .ok (stored id schema image) := by
  have hfits := Layout.stop_le schema.size image
  rw [Layout.stop] at hfits
  have hlength : ((Bitmap.mk (image.take (Layout.start schema.size image))).bits
      (Layout.slotCount schema.size image.length)).length =
        Layout.slotCount schema.size image.length := by
    rw [Bitmap.bits, List.length_map, List.length_range]
  have hread := decodeSlots_eq id schema 0
    ((Bitmap.mk (image.take (Layout.start schema.size image))).bits
      (Layout.slotCount schema.size image.length))
    (image.drop (Layout.start schema.size image)) (by rw [hlength, List.length_drop]; omega)
  change (decodeSlots id schema 0 ((Bitmap.mk (image.take (Layout.start schema.size image))).bits
    (Layout.slotCount schema.size image.length)) (image.drop (Layout.start schema.size image))).map _ = _
  rw [hread]
  refine congrArg Except.ok (congrArg (Page.mk id schema image.length _ · none) ?_)
  apply List.ext_getElem?
  intro slot
  rw [List.getElem?_mapIdx, Bitmap.bits, List.getElem?_map, List.getElem?_map]
  by_cases hslot : slot < Layout.slotCount schema.size image.length
  · rw [List.getElem?_range hslot, Option.map_some, Option.map_some, Option.map_some,
      Layout.get_take_start hslot, storedSlot, Layout.inUse, decide_eq_true hslot, Bool.true_and,
      List.drop_drop, Nat.zero_add, Schema.cells, Layout.slotBytes]
  · rw [List.getElem?_eq_none (by rw [List.length_range]; omega)]
    rfl

theorem shaped_stored (id : PageId) (schema : Schema) (image : Bytes) :
    (stored id schema image).Shaped := by
  obtain ⟨page, hpage, _, _, _, _, hshaped⟩ := shaped_ofImage id schema image
  rw [ofImage_eq] at hpage
  cases hpage
  exact hshaped

theorem tuple?_stored (id : PageId) (schema : Schema) (image : Bytes) (slot : Nat) :
    (stored id schema image).tuple? slot = storedSlot id schema image slot := by
  rw [tuple?, stored, List.getElem?_map]
  by_cases hslot : slot < Layout.slotCount schema.size image.length
  · rw [List.getElem?_range hslot]
    rfl
  · rw [List.getElem?_eq_none (by rw [List.length_range]; omega), storedSlot, Layout.inUse,
      decide_eq_false hslot]
    rfl

end Page
end RowStore
