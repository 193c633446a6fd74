import Mathlib.Algebra.Ring.Nat
import RowStore.Proofs.StoredCells

/-!
# Checked reading

The reading of a page image with every access checked: a slice or a byte past the end of its data is a
fault, and the size of a tuple is the one recorded when its schema was made. The main statement says
that this reading meets no fault and refuses no bytes, whichever way the schema was made, and that it
gives the page that the image is read as.
-/
namespace RowStore

namespace Schema

/-- The schemas that there are, with the size of a tuple that is recorded when they are made. -/
inductive Made : Schema → Nat → Prop
  | ofColumns {columns : List Column} {schema : Schema} (h : ofColumns columns = .ok schema) :
      Made schema (schema.columns.map Column.size).sum
  | ofTypes {types : List ColumnType} {schema : Schema} (h : ofTypes types = .ok schema) :
      Made schema (schema.columns.map Column.size).sum
  | ofTypesAndNames {types : List ColumnType} {names : List String} {schema : Schema}
      (h : ofTypesAndNames types names = .ok schema) : Made schema (schema.columns.map Column.size).sum
  | build {builder : SchemaBuilder} {schema : Schema} (h : builder.build = .ok schema) :
      Made schema (schema.columns.map Column.size).sum
  | merge {a b : Schema} {m n : Nat} (left : Made a m) (right : Made b n) : Made (a.merge b) (m + n)
  | qualify {schema : Schema} {size : Nat} (made : Made schema size) (qualifier : String) :
      Made (schema.qualify qualifier) size

theorem sum_sizes (schema : Schema) : (schema.columns.map Column.size).sum = schema.size := by
  rw [size, types]
  induction schema.columns with
  | nil => rfl
  | cons column columns ih => rw [List.map_cons, List.sum_cons, ih]; rfl

theorem Made.size_eq {schema : Schema} {size : Nat} (h : schema.Made size) : size = schema.size := by
  induction h with
  | ofColumns | ofTypes | ofTypesAndNames | build => exact sum_sizes _
  | merge _ _ hleft hright => rw [size_merge, hleft, hright]
  | qualify _ qualifier ih => rw [ih, Schema.size, Schema.size, types_qualify]

end Schema

/-- Why a checked reading stops. -/
inductive ReadFault where
  | outOfBounds
  | refused (cause : StoreError)

/-- A reading in which every access is checked. -/
abbrev Checked (α : Type) := Except ReadFault α

namespace Checked

/-- The bytes from `start` up to `stop`. -/
def slice (data : Bytes) (start stop : Nat) : Checked Bytes :=
  if start ≤ stop ∧ stop ≤ data.length then .ok ((data.drop start).take (stop - start))
  else .error .outOfBounds

def byte (data : Bytes) (i : Nat) : Checked UInt8 :=
  match data[i]? with
  | some b => .ok b
  | none => .error .outOfBounds

/-- The field at the start of the data; data shorter than the column hold none. -/
def field (type : ColumnType) (data : Bytes) : Checked (Option Field) :=
  if data.length < type.size then return none
  else do
    let cell ← slice data 0 type.size
    let word ← slice cell 0 4
    match type with
    | .integer => return some (.int (Word.decodeInt word))
    | .char width =>
      let rest ← slice cell 4 cell.length
      let text ← slice rest 0 (min (Word.decode word) width.toNat)
      return some (.str (Text.decode text))

/-- The fields from `offset` on, each behind the one before. -/
def fields : List ColumnType → Nat → Bytes → Checked (Option (List Field))
  | [], _, _ => return some []
  | type :: types, offset, data => do
    let rest ← slice data offset data.length
    match ← field type rest with
    | none => return none
    | some field => return (← fields types (offset + type.size) data).map (field :: ·)

def bit (header : Bytes) (slot : Nat) : Checked Bool :=
  return (← byte header (slot / 8)).toNat.testBit (slot % 8)

/-- The tuple in a slot, if the bitmap has one. -/
def slot (id : PageId) (schema : Schema) (size : Nat) (image header : Bytes) (slot : Nat) :
    Checked (Option Tuple) := do
  if ← bit header slot then
    let start := header.length + slot * size
    let data ← slice image start (start + size)
    match ← fields schema.types 0 data with
    | none => throw (.refused (.corruptPage id s!"slot {slot} does not decode as [{schema.text}]"))
    | some fields => return some { schema, fields, record := some ⟨id, UInt16.ofNat slot⟩ }
  else return none

/-- The page in the image, with tuples of the given size. -/
def page (id : PageId) (schema : Schema) (size : Nat) (image : Bytes) : Checked Page := do
  let count := Layout.slotCount size image.length
  let header ← slice image 0 (Layout.headerSize count)
  let slots ← (List.range count).mapM (slot id schema size image header)
  return { id, schema, size := image.length, header := ⟨header⟩, slots }

theorem ok_bind {α β : Type} (a : α) (next : α → Checked β) : (Except.ok a >>= next) = next a := rfl

theorem slice_eq_ok {data : Bytes} {start stop : Nat} (h : start ≤ stop) (hstop : stop ≤ data.length) :
    slice data start stop = .ok ((data.drop start).take (stop - start)) :=
  if_pos ⟨h, hstop⟩

theorem slice_rest {data : Bytes} {start : Nat} (h : start ≤ data.length) :
    slice data start data.length = .ok (data.drop start) := by
  rw [slice_eq_ok h (Nat.le_refl _), ← List.length_drop, List.take_length]

theorem slice_front {data : Bytes} {stop : Nat} (h : stop ≤ data.length) :
    slice data 0 stop = .ok (data.take stop) :=
  slice_eq_ok (Nat.zero_le _) h

/-- A field takes the bytes of its cell, whatever they are. -/
theorem field_eq {type : ColumnType} {data : Bytes} (h : type.size ≤ data.length) :
    field type data = .ok (some (Cell.value ⟨type, data.take type.size⟩)) := by
  have hcell : (data.take type.size).length = type.size := List.length_take_of_le h
  have hword : 4 ≤ (data.take type.size).length := by
    rw [hcell]
    cases type with
    | integer => exact Nat.le_refl 4
    | char width => exact Nat.le_add_right 4 _
  rw [field, if_neg (Nat.not_lt.mpr h), slice_front h, ok_bind, slice_front hword, ok_bind]
  cases type with
  | integer => simp only [Cell.value, Word.decodeInt, Word.decode_take (Nat.le_refl 4)]; rfl
  | char width =>
    have htext : min (Word.decode (data.take (ColumnType.char width).size)) width.toNat ≤
        ((data.take (ColumnType.char width).size).drop 4).length := by
      rw [List.length_drop, hcell, ColumnType.size, Nat.add_sub_cancel_left]
      exact Nat.min_le_right _ _
    simp only [slice_rest hword, ok_bind, Word.decode_take (Nat.le_refl 4), slice_front htext]
    rfl

theorem fields_eq {types : List ColumnType} {offset : Nat} {data : Bytes}
    (h : offset + ColumnType.totalSize types ≤ data.length) :
    fields types offset data = .ok (some ((Cell.cut types (data.drop offset)).map Cell.value)) := by
  induction types generalizing offset with
  | nil => rfl
  | cons type types ih =>
    rw [ColumnType.totalSize] at h
    have hfield : type.size ≤ (data.drop offset).length := by
      rw [List.length_drop]
      omega
    have hrest : offset + type.size + ColumnType.totalSize types ≤ data.length := by omega
    rw [fields, slice_rest (by omega), ok_bind, field_eq hfield, ok_bind]
    simp only [ih hrest, ok_bind, Cell.cut, List.drop_drop]
    rfl

theorem bit_eq {tupleSize n : Nat} {image : Bytes} (h : n < Layout.slotCount tupleSize image.length) :
    bit (image.take (Layout.start tupleSize image)) n = .ok (Layout.inUse tupleSize image n) := by
  have hheader : n / 8 < (image.take (Layout.start tupleSize image)).length := by
    rw [List.length_take_of_le (Layout.start_le tupleSize image)]
    exact Layout.bit_lt_headerSize h
  rw [Layout.inUse, decide_eq_true h, Bool.true_and, ← Layout.get_take_start h]
  simp only [bit, byte, Bitmap.get, List.getElem?_eq_getElem hheader]
  rfl

theorem slot_eq (id : PageId) {schema : Schema} {image : Bytes} {n : Nat}
    (h : n < Layout.slotCount schema.size image.length) :
    slot id schema schema.size image (image.take (Layout.start schema.size image)) n =
      .ok (Page.storedSlot id schema image n) := by
  have hend := Layout.slot_end_le h
  have hheader : (image.take (Layout.start schema.size image)).length = Layout.start schema.size image :=
    List.length_take_of_le (Layout.start_le schema.size image)
  rw [slot, bit_eq h, ok_bind, Page.storedSlot]
  cases Layout.inUse schema.size image n with
  | false => rfl
  | true =>
    have hslice : slice image (Layout.start schema.size image + n * schema.size)
        (Layout.start schema.size image + n * schema.size + schema.size) =
          .ok (Layout.slotBytes schema.size image n) := by
      rw [slice_eq_ok (Nat.le_add_right _ _) hend, Nat.add_sub_cancel_left, Layout.slotBytes]
    have hfields : fields schema.types 0 (Layout.slotBytes schema.size image n) =
        .ok (some ((schema.cells image n).map Cell.value)) :=
      fields_eq (by rw [Nat.zero_add, Layout.length_slotBytes h]; exact Nat.le_refl _)
    simp only [if_true, hheader, hslice, ok_bind, hfields]
    rfl

theorem mapM_eq_ok {α β : Type} {read : α → Checked β} {f : α → β} {l : List α}
    (h : ∀ a ∈ l, read a = .ok (f a)) : l.mapM read = .ok (l.map f) := by
  induction l with
  | nil => rfl
  | cons a l ih =>
    rw [List.mapM_cons, h a List.mem_cons_self, ih fun b hb => h b (List.mem_cons_of_mem _ hb)]
    rfl

theorem page_eq (id : PageId) (schema : Schema) (image : Bytes) :
    page id schema schema.size image = .ok (Page.stored id schema image) := by
  have hheader : slice image 0 (Layout.headerSize (Layout.slotCount schema.size image.length)) =
      .ok (image.take (Layout.start schema.size image)) :=
    slice_front (Layout.start_le schema.size image)
  have hslots : (List.range (Layout.slotCount schema.size image.length)).mapM
      (slot id schema schema.size image (image.take (Layout.start schema.size image))) =
        .ok (Page.stored id schema image).slots :=
    mapM_eq_ok fun n hn => slot_eq id (List.mem_range.mp hn)
  simp only [page, hheader, ok_bind, hslots]
  rfl

/-- Whatever bytes are read, and however their schema was made, the checked reading meets no fault: it
gives the page of the image, which has the slots that its length allows, those in use that the bitmap
marks, and in each of them a tuple that knows its place. -/
theorem page_of_made {schema : Schema} {size : Nat} (h : schema.Made size) (id : PageId) (image : Bytes) :
    ∃ read, page id schema size image = .ok read ∧ Page.ofImage id schema image = .ok read ∧
      read.numSlots = Layout.slotCount size image.length ∧
      (∀ slot < read.numSlots, (read.tuple? slot).isSome = (Bitmap.mk image).get slot) ∧
      (read.numSlots ≤ Layout.maxSlots → ∀ slot t, read.tuple? slot = some t →
        ∃ record, t.record = some record ∧ record.page = id ∧ record.slot.toNat = slot) := by
  rw [h.size_eq]
  have hslots : (Page.stored id schema image).numSlots = Layout.slotCount schema.size image.length := by
    rw [Page.numSlots, Page.stored, List.length_map, List.length_range]
  refine ⟨Page.stored id schema image, page_eq id schema image, Page.ofImage_eq id schema image, hslots,
    fun slot hslot => ?_, fun hsmall slot t ht => ?_⟩
  · rw [hslots] at hslot
    rw [Page.tuple?_stored, Page.storedSlot, Layout.inUse, decide_eq_true hslot, Bool.true_and]
    cases (Bitmap.mk image).get slot <;> rfl
  · rw [Page.tuple?_stored, Page.storedSlot] at ht
    split at ht
    · next hused =>
      cases ht
      have hslot := Layout.lt_of_inUse hused
      rw [← hslots] at hslot
      exact ⟨⟨id, UInt16.ofNat slot⟩, rfl, rfl, Page.slot_record _ hslot hsmall⟩
    · cases ht

/-- Thirty bytes of ones, read under a schema that was built, seen through an alias and joined. -/
theorem page_of_made_joined :
    let built : Schema := ⟨[{ type := .integer, name := some "id" }], List.cons_ne_nil _ _⟩
    let typed : Schema := ⟨[{ type := .char 5 }], List.cons_ne_nil _ _⟩
    let schema := (built.qualify "t").merge typed
    let image : Bytes := List.replicate 30 0xFF
    let id : PageId := ⟨.number 7, 2⟩
    schema.Made 13 ∧ ∃ read, page id schema 13 image = .ok read ∧ Page.ofImage id schema image = .ok read ∧
      read.numSlots = 2 ∧ (∀ slot < 2, (read.tuple? slot).isSome = true) ∧
      ∀ slot t, read.tuple? slot = some t →
        ∃ record, t.record = some record ∧ record.page = id ∧ record.slot.toNat = slot := by
  intro built typed schema image id
  have hbuilt : built.Made 4 :=
    .build (show (({} : SchemaBuilder).column "id" .integer).build = .ok built from rfl)
  have htyped : typed.Made 9 := .ofTypes (show Schema.ofTypes [.char 5] = .ok typed from rfl)
  have hmade : schema.Made 13 := (hbuilt.qualify "t").merge htyped
  obtain ⟨read, hread, hofImage, hslots, hused, hplaced⟩ := page_of_made hmade id image
  have htwo : read.numSlots = 2 := hslots.trans (by decide)
  rw [htwo] at hused hplaced
  refine ⟨hmade, read, hread, hofImage, htwo, fun slot hslot => ?_, hplaced (by decide)⟩
  have hbits : ∀ slot < 2, (Bitmap.mk image).get slot = true := by decide
  rw [hused slot hslot, hbits slot hslot]

end Checked
end RowStore
