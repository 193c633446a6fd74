import RowStore.Page.Basic
import RowStore.Tuple.Codec

/-!
# Page images

On disk a page is its bitmap, its slots one after the other, and zeros up to the page size; a free
slot is written as zeros. Reading trusts the bitmap: a set bit says that the slot holds a tuple.
-/
namespace RowStore.Page

/-- The stored form of a slot. -/
def encodeSlot (width : Nat) : Option Tuple → Except StoreError Bytes
  | some t => t.encode
  | none => .ok (List.replicate width 0)

/-- The stored forms of the slots, one after the other. -/
def encodeSlots (width : Nat) : List (Option Tuple) → Except StoreError Bytes
  | [] => .ok []
  | slot :: slots =>
    match encodeSlot width slot with
    | .error e => .error e
    | .ok data => (encodeSlots width slots).map (data ++ ·)

def toImage (page : Page) : Except StoreError Bytes :=
  (encodeSlots page.schema.size page.slots).map fun body =>
    let data := page.header.bytes ++ body
    data ++ List.replicate (page.size - data.length) 0

/-- The slots from number `slot` on, one for each bit of the bitmap. -/
def decodeSlots (id : PageId) (schema : Schema) :
    Nat → List Bool → Bytes → Except StoreError (List (Option Tuple))
  | _, [], _ => .ok []
  | slot, used :: bits, data =>
    let rest := decodeSlots id schema (slot + 1) bits (data.drop schema.size)
    if used then
      match Tuple.decode schema (data.take schema.size) with
      | none => .error (.corruptPage id s!"slot {slot} does not decode as [{schema.text}]")
      | some t => rest.map (some { t with record := some ⟨id, UInt16.ofNat slot⟩ } :: ·)
    else rest.map (none :: ·)

/-- The clean page stored in the image. -/
def ofImage (id : PageId) (schema : Schema) (image : Bytes) : Except StoreError Page :=
  let count := Layout.slotCount schema.size image.length
  let headerSize := Layout.headerSize count
  let header : Bitmap := ⟨image.take headerSize⟩
  (decodeSlots id schema 0 (header.bits count) (image.drop headerSize)).map fun slots =>
    { id, schema, size := image.length, header, slots }

/-- A page that was read has the slots of its image and is clean. -/
theorem ofImage_eq_ok {id : PageId} {schema : Schema} {image : Bytes} {page : Page}
    (h : ofImage id schema image = .ok page) :
    ∃ slots, page = {
        id, schema, size := image.length, slots
        header := ⟨image.take (Layout.headerSize (Layout.slotCount schema.size image.length))⟩ } ∧
      decodeSlots id schema 0 (page.header.bits (Layout.slotCount schema.size image.length))
        (image.drop (Layout.headerSize (Layout.slotCount schema.size image.length))) = .ok slots := by
  obtain ⟨slots, hslots, rfl⟩ := map_eq_ok.mp h
  exact ⟨slots, rfl, hslots⟩

end RowStore.Page
