import RowStore.Proofs.Evictions
import RowStore.Proofs.Requests
import RowStore.Proofs.SlotMaps

/-!
# The regions of a page image

A page image has a region for the bitmap, one for each slot and one for the padding, which do not meet
and cover the page. The main statement says that an insert or a delete leaves the image as it was but
for the bit and the region of its slot.
-/
namespace RowStore

namespace Layout

/-- A part of a page image. -/
inductive Region where
  | bitmap
  | slot (n : Nat)
  | padding
  deriving DecidableEq

namespace Region

/-- The byte at the position belongs to the region. -/
def Has (tupleSize pageSize : Nat) : Region → Nat → Prop
  | .bitmap, i => i < headerSize (slotCount tupleSize pageSize)
  | .slot n, i => n < slotCount tupleSize pageSize ∧
      headerSize (slotCount tupleSize pageSize) + n * tupleSize ≤ i ∧
        i < headerSize (slotCount tupleSize pageSize) + (n + 1) * tupleSize
  | .padding, i =>
      headerSize (slotCount tupleSize pageSize) + slotCount tupleSize pageSize * tupleSize ≤ i ∧
        i < pageSize

variable {tupleSize pageSize : Nat} {region other : Region} {i : Nat}

theorem has_slot_lt {n : Nat} (h : (slot n).Has tupleSize pageSize i) :
    i < headerSize (slotCount tupleSize pageSize) + slotCount tupleSize pageSize * tupleSize :=
  Nat.lt_of_lt_of_le h.2.2 (Nat.add_le_add_left (Nat.mul_le_mul_right tupleSize h.1) _)

theorem Has.lt (h : region.Has tupleSize pageSize i) : i < pageSize := by
  have hfits := headerSize_add_slots_le tupleSize pageSize
  cases region with
  | bitmap =>
    have h : i < headerSize (slotCount tupleSize pageSize) := h
    omega
  | slot n => exact Nat.lt_of_lt_of_le (has_slot_lt h) hfits
  | padding => exact h.2

theorem slot_unique {n m : Nat} (h : (slot n).Has tupleSize pageSize i)
    (h' : (slot m).Has tupleSize pageSize i) : n = m := by
  obtain ⟨-, hle, hlt⟩ := h
  obtain ⟨-, hle', hlt'⟩ := h'
  rcases Nat.lt_trichotomy n m with hnm | hnm | hnm
  · have := Nat.mul_le_mul_right tupleSize (show n + 1 ≤ m from hnm)
    omega
  · exact hnm
  · have := Nat.mul_le_mul_right tupleSize (show m + 1 ≤ n from hnm)
    omega

theorem Has.unique (h : region.Has tupleSize pageSize i) (h' : other.Has tupleSize pageSize i) :
    region = other := by
  have hbitmap (hfirst : Region.bitmap.Has tupleSize pageSize i) :
      i < headerSize (slotCount tupleSize pageSize) := hfirst
  have hslot {n : Nat} (hone : (slot n).Has tupleSize pageSize i) :
      headerSize (slotCount tupleSize pageSize) ≤ i :=
    Nat.le_trans (Nat.le_add_right _ _) hone.2.1
  have hpadding (hlast : Region.padding.Has tupleSize pageSize i) :
      headerSize (slotCount tupleSize pageSize) ≤ i :=
    Nat.le_trans (Nat.le_add_right _ _) hlast.1
  cases region with
  | bitmap =>
    cases other with
    | bitmap => rfl
    | slot n => exact absurd (hbitmap h) (Nat.not_lt_of_le (hslot h'))
    | padding => exact absurd (hbitmap h) (Nat.not_lt_of_le (hpadding h'))
  | slot n =>
    cases other with
    | bitmap => exact absurd (hbitmap h') (Nat.not_lt_of_le (hslot h))
    | slot m => rw [slot_unique h h']
    | padding => exact absurd (has_slot_lt h) (Nat.not_lt_of_le h'.1)
  | padding =>
    cases other with
    | bitmap => exact absurd (hbitmap h') (Nat.not_lt_of_le (hpadding h))
    | slot n => exact absurd (has_slot_lt h') (Nat.not_lt_of_le h.1)
    | padding => rfl

theorem exists_has (h : i < pageSize) : ∃ region : Region, region.Has tupleSize pageSize i := by
  by_cases hheader : i < headerSize (slotCount tupleSize pageSize)
  · exact ⟨.bitmap, hheader⟩
  by_cases hslots :
      i < headerSize (slotCount tupleSize pageSize) + slotCount tupleSize pageSize * tupleSize
  · have hlt : i - headerSize (slotCount tupleSize pageSize) <
        slotCount tupleSize pageSize * tupleSize := by omega
    have hpos : 0 < tupleSize := Nat.pos_of_ne_zero fun hzero => by
      rw [hzero, Nat.mul_zero] at hlt
      exact Nat.not_lt_zero _ hlt
    have hmod := Nat.div_add_mod' (i - headerSize (slotCount tupleSize pageSize)) tupleSize
    have hrest := Nat.mod_lt (i - headerSize (slotCount tupleSize pageSize)) hpos
    refine ⟨.slot ((i - headerSize (slotCount tupleSize pageSize)) / tupleSize),
      (Nat.div_lt_iff_lt_mul hpos).mpr hlt, by omega, ?_⟩
    rw [Nat.succ_mul]
    omega
  · exact ⟨.padding, Nat.le_of_not_lt hslots, h⟩

end Region

variable {tupleSize : Nat} {image : Bytes}

theorem getElem?_of_bitmap {i : Nat} (h : Region.bitmap.Has tupleSize image.length i) :
    image[i]? = (image.take (start tupleSize image))[i]? :=
  (List.getElem?_take_of_lt h).symm

theorem getElem?_of_slot {n i : Nat} (h : (Region.slot n).Has tupleSize image.length i) :
    image[i]? = (slotBytes tupleSize image n)[i - (start tupleSize image + n * tupleSize)]? := by
  obtain ⟨-, hle, hlt⟩ := h
  change start tupleSize image + n * tupleSize ≤ i at hle
  change i < start tupleSize image + (n + 1) * tupleSize at hlt
  rw [Nat.succ_mul] at hlt
  rw [slotBytes, List.getElem?_take_of_lt (by omega), List.getElem?_drop, Nat.add_sub_cancel' hle]

theorem getElem?_of_padding {i : Nat} (h : Region.padding.Has tupleSize image.length i) :
    image[i]? = (image.drop (stop tupleSize image))[i - stop tupleSize image]? := by
  have hle : stop tupleSize image ≤ i := h.1
  rw [List.getElem?_drop, Nat.add_sub_cancel' hle]

end Layout

/-- The images have one length and agree but for the bit and the region of the slot. -/
structure Layout.AgreeBut (tupleSize slot : Nat) (image image' : Bytes) : Prop where
  length : image'.length = image.length
  bytes : ∀ i, i ≠ slot / 8 → ¬ (Region.slot slot).Has tupleSize image.length i → image'[i]? = image[i]?
  bits : ∀ other, other / 8 = slot / 8 → other ≠ slot →
    (Bitmap.mk image').get other = (Bitmap.mk image).get other

namespace Page

theorem encodeSlot_at {width : Nat} {slots : List (Option Tuple)} {body : Bytes}
    (hwidth : ∀ stored ∈ slots, ∀ data, encodeSlot width stored = .ok data → data.length = width)
    (h : encodeSlots width slots = .ok body) {n : Nat} {stored : Option Tuple}
    (hn : slots[n]? = some stored) :
    encodeSlot width stored = .ok ((body.drop (n * width)).take width) := by
  induction slots generalizing body n with
  | nil => cases hn
  | cons first slots ih =>
    rw [encodeSlots] at h
    split at h
    · cases h
    · next head hhead =>
      obtain ⟨tail, htail, rfl⟩ := map_eq_ok.mp h
      have hlength := hwidth first List.mem_cons_self head hhead
      cases n with
      | zero =>
        cases hn
        rw [Nat.zero_mul, List.drop_zero, List.take_left' hlength, hhead]
      | succ n =>
        have hrest := ih (fun other hmem => hwidth other (List.mem_cons_of_mem _ hmem)) htail hn
        rw [hrest, Nat.succ_mul, Nat.add_comm, ← List.drop_drop, List.drop_left' hlength]

/-- What the image of a page has in each of its regions. -/
structure Laid (page : Page) (image : Bytes) : Prop where
  length : image.length = page.size
  header : image.take (Layout.start page.schema.size image) = page.header.bytes
  slot : ∀ n stored, page.slots[n]? = some stored →
    encodeSlot page.schema.size stored = .ok (Layout.slotBytes page.schema.size image n)
  rest : ∀ b ∈ image.drop (Layout.stop page.schema.size image), b = 0

theorem Shaped.length_encodeSlot {page : Page} (h : page.Shaped) {stored : Option Tuple}
    (hmem : stored ∈ page.slots) {data : Bytes}
    (hdata : encodeSlot page.schema.size stored = .ok data) : data.length = page.schema.size := by
  cases stored with
  | none =>
    cases hdata
    exact List.length_replicate
  | some t =>
    obtain ⟨hagrees, hcomplete⟩ := h.shape hmem
    exact (Tuple.decode_of_encode hagrees hcomplete hdata).1

theorem Shaped.laid {page : Page} (h : page.Shaped) {image : Bytes} (himage : page.toImage = .ok image) :
    page.Laid image := by
  obtain ⟨hlength, -⟩ := h.rows_ofImage himage
  obtain ⟨body, hbody, hparts⟩ := map_eq_ok.mp himage
  have hslots : page.numSlots = Layout.slotCount page.schema.size page.size := h.slots
  have hbodyLength : body.length = page.numSlots * page.schema.size :=
    (decodeSlots_encodeSlots (fun t ht => h.shape ht) hbody).1
  have hstart : Layout.start page.schema.size image = page.header.bytes.length := by
    rw [Layout.start, hlength, ← hslots, h.header]
  have hstop : Layout.stop page.schema.size image = (page.header.bytes ++ body).length := by
    rw [Layout.stop, hstart, hlength, ← hslots, List.length_append, hbodyLength]
  dsimp only at hparts
  constructor
  case length => exact hlength
  case header => rw [hstart, ← hparts, List.append_assoc, List.take_left]
  case slot =>
    intro n stored hn
    have hlt : n < page.numSlots := (List.getElem?_eq_some_iff.mp hn).1
    have hend := Nat.mul_le_mul_right page.schema.size (Nat.succ_le_of_lt hlt)
    rw [Nat.succ_mul, ← hbodyLength] at hend
    rw [encodeSlot_at (fun stored hmem data => h.length_encodeSlot hmem) hbody hn, Layout.slotBytes, hstart,
      ← hparts, List.append_assoc, List.drop_length_add_append, List.drop_append_of_le_length (by omega),
      List.take_append_of_le_length (by rw [List.length_drop]; omega)]
  case rest =>
    intro b hb
    rw [hstop, ← hparts, List.drop_left] at hb
    exact List.eq_of_mem_replicate hb

/-- The page with the slot filled or freed, in the slots and in the bitmap. -/
def put (page : Page) (slot : Nat) (stored : Option Tuple) : Page :=
  { page with slots := page.slots.set slot stored, header := page.header.set slot stored.isSome }

/-- An insert or a delete that succeeds, with the slot that it is about. -/
inductive EditsSlot (page : Page) : Nat → Page → Prop
  | insert {t : Tuple} {record : RecordId} {page' : Page} (built : t.Built)
      (h : insert t page = .ok record page') : EditsSlot page record.slot.toNat page'
  | delete {t : Tuple} {record : RecordId} {page' : Page} (place : t.record = some record)
      (h : delete t page = .ok () page') : EditsSlot page record.slot.toNat page'

variable {page page' : Page} {slot : Nat} {stored : Option Tuple} {image image' : Bytes}

theorem Shaped.edited_slot (h : page.Shaped) (hsmall : page.numSlots ≤ Layout.maxSlots)
    (hedit : page.EditsSlot slot page') :
    slot < page.numSlots ∧ page'.Shaped ∧ ∃ stored, page' = page.put slot stored := by
  cases hedit with
  | @insert t record _ built hinsert =>
    rw [Page.insert] at hinsert
    split at hinsert
    case isFalse => cases hinsert
    case isTrue hagrees =>
      split at hinsert <;> cases hinsert
      next free hfree =>
      have hfree := ((page.freeSlot?_eq_some_iff free).mp hfree).1
      rw [page.slot_record hfree hsmall]
      exact ⟨hfree, h.fill hfree hagrees built.complete,
        some { t with record := some (page.record free) }, rfl⟩
  | @delete t record _ place hdelete =>
    obtain ⟨found, hfound, -, hused, rfl⟩ := delete_eq_ok.mp hdelete
    rw [place, Option.some.injEq] at hfound
    subst hfound
    rw [isSlotUsed, Bool.and_eq_true, decide_eq_true_eq] at hused
    exact ⟨hused.1, h.free hused.1, none, rfl⟩

theorem Laid.getElem?_padding (h : page.Laid image) {i : Nat}
    (hi : Layout.Region.padding.Has page.schema.size image.length i) : image[i]? = some 0 := by
  have hbyte := Layout.getElem?_of_padding hi
  rw [List.getElem?_eq_getElem hi.lt] at hbyte ⊢
  rw [h.rest _ (List.mem_of_getElem? hbyte.symm)]

theorem Laid.get_eq (h : page.Laid image) {n : Nat}
    (hn : n / 8 < Layout.start page.schema.size image) : (Bitmap.mk image).get n = page.header.get n := by
  simp only [Bitmap.get, ← h.header, List.getElem?_take_of_lt hn]

theorem Laid.agreeBut (h : page.Laid image) (h' : (page.put slot stored).Laid image')
    (hshaped : page.Shaped) (hslot : slot < page.numSlots) :
    Layout.AgreeBut page.schema.size slot image image' := by
  have hslots : page.numSlots = Layout.slotCount page.schema.size page.size := hshaped.slots
  have hlength : image'.length = image.length := h'.length.trans h.length.symm
  have hstart : Layout.start page.schema.size image' = Layout.start page.schema.size image := by
    rw [Layout.start, Layout.start, hlength]
  constructor
  case length => exact hlength
  case bytes =>
    intro i hbyte hregion
    by_cases hi : i < image.length
    case neg => rw [List.getElem?_eq_none (by omega), List.getElem?_eq_none (by omega)]
    obtain ⟨region, hhas⟩ : ∃ region : Layout.Region, region.Has page.schema.size image.length i :=
      Layout.Region.exists_has hi
    have hhas' : region.Has page.schema.size image'.length i := by rwa [hlength]
    cases region with
    | bitmap =>
      rw [Layout.getElem?_of_bitmap hhas, Layout.getElem?_of_bitmap hhas', h.header]
      refine (congrArg (·[i]?) h'.header).trans ?_
      exact Bitmap.getElem?_set_ne _ _ (Ne.symm hbyte)
    | slot n =>
      have hne : slot ≠ n := fun hsame => hregion (hsame ▸ hhas)
      have hn : n < page.slots.length := by
        rw [← numSlots, hslots, ← h.length]
        exact hhas.1
      have hkept : (page.put slot stored).slots[n]? = some page.slots[n] :=
        (List.getElem?_set_ne hne).trans (List.getElem?_eq_getElem hn)
      have hsame := (h.slot n _ (List.getElem?_eq_getElem hn)).symm.trans (h'.slot n _ hkept)
      rw [Layout.getElem?_of_slot hhas, Layout.getElem?_of_slot hhas', hstart, Except.ok.inj hsame]
      rfl
    | padding => rw [h.getElem?_padding hhas, h'.getElem?_padding hhas']
  case bits =>
    intro other hother hne
    have hlt : other / 8 < Layout.start page.schema.size image := by
      rw [hother, Layout.start, h.length, ← hslots]
      exact Layout.bit_lt_headerSize hslot
    rw [h.get_eq hlt, h'.get_eq (by rwa [show (page.put slot stored).schema = page.schema from rfl, hstart])]
    exact (Bitmap.get_set _ _ _ _ (hshaped.bitmap.slot_lt_bits hslot)).trans (if_neg (Ne.symm hne))

/-- Each byte of a page belongs to one region: the bitmap, a slot or the padding. An insert or a delete
leaves the image of a page as it was, but for the bit of its slot in the bitmap and the region of the
slot, which then have what the slot holds. -/
theorem edit_stays_in_slot (id : PageId) (schema : Schema) (size : Nat)
    (hsmall : Layout.slotCount schema.size size ≤ Layout.maxSlots) {calls : List PageCall}
    (hcalls : ∀ call ∈ calls, call.Proper) (hedit : (run calls (empty id schema size)).EditsSlot slot page') :
    let page := run calls (empty id schema size)
    ((∃ image, page.toImage = .ok image) ↔ ∀ t ∈ page.tuples, t.Valid) ∧
      ((∃ image', page'.toImage = .ok image') ↔ ∀ t ∈ page'.tuples, t.Valid) ∧
      (∀ image image', page.toImage = .ok image → page'.toImage = .ok image' →
        image.length = size ∧ Layout.AgreeBut schema.size slot image image' ∧
          (Bitmap.mk image').get slot = (page'.tuple? slot).isSome ∧
          encodeSlot schema.size (page'.tuple? slot) = .ok (Layout.slotBytes schema.size image' slot)) ∧
      Layout.Region.bitmap.Has schema.size size (slot / 8) ∧
      (∀ i, i < size ↔ ∃ region : Layout.Region, region.Has schema.size size i) ∧
      ∀ (region other : Layout.Region) i, region.Has schema.size size i → other.Has schema.size size i →
        region = other := by
  intro page
  have halike := (storable_empty id schema size).shaped.alike_run hcalls
  have hschema : page.schema = schema := halike.schema
  have hsize : page.size = size := halike.size
  have hcount : page.numSlots = Layout.slotCount schema.size size := by
    rw [halike.shaped.slots, hschema, hsize]
  obtain ⟨hslot, hshaped', stored, rfl⟩ := halike.shaped.edited_slot (by rwa [← hcount] at hsmall) hedit
  have hheld : (page.put slot stored).slots[slot]? = some stored := List.getElem?_set_self hslot
  have htuple : (page.put slot stored).tuple? slot = stored := by rw [tuple?, hheld, Option.join_some]
  have hbit : Layout.Region.bitmap.Has schema.size size (slot / 8) := by
    change slot / 8 < Layout.headerSize (Layout.slotCount schema.size size)
    rw [← hcount]
    exact Layout.bit_lt_headerSize hslot
  refine ⟨halike.shaped.toImage_iff, hshaped'.toImage_iff, fun image image' himage himage' => ?_, hbit,
    fun i => ⟨Layout.Region.exists_has, fun h => h.elim fun _ => Layout.Region.Has.lt⟩,
    fun _ _ _ => Layout.Region.Has.unique⟩
  have hlaid := halike.shaped.laid himage
  have hlaid' := hshaped'.laid himage'
  have hlength' : image'.length = size := hlaid'.length.trans hsize
  have hframe := hlaid.agreeBut hlaid' halike.shaped hslot
  rw [hschema] at hframe
  refine ⟨hlaid.length.trans hsize, hframe, ?_, ?_⟩
  · rw [hlaid'.get_eq, hshaped'.marked slot (by rwa [numSlots, put, List.length_set])]
    rw [show (page.put slot stored).schema = schema from hschema, Layout.start, hlength']
    exact hbit
  · have hwritten := hlaid'.slot slot stored hheld
    rw [show (page.put slot stored).schema = schema from hschema] at hwritten
    rw [htuple, hwritten]

/-- On a page of three slots the first of two tuples is deleted. -/
theorem edit_stays_in_slot_first :
    let schema : Schema := ⟨[{ type := .integer }, { type := .char 3 }], List.cons_ne_nil _ _⟩
    let id : PageId := ⟨.number 7, 2⟩
    let row (n : Int32) (text : String) : Tuple := ⟨schema, [.int n, .str text], none⟩
    let calls : List PageCall := [.insert (row 1 "ab"), .insert (row 2 "é")]
    let page := run calls (empty id schema 40)
    let kept : Bytes := [0, 0, 0, 2, 0, 0, 0, 2, 0xC3, 0xA9, 0] ++ List.replicate 17 0
    let image : Bytes := 3 :: [0, 0, 0, 1, 0, 0, 0, 2, 0x61, 0x62, 0] ++ kept
    let image' : Bytes := 2 :: List.replicate 11 0 ++ kept
    Layout.slotCount schema.size 40 = 3 ∧ Layout.slotCount schema.size 40 ≤ Layout.maxSlots ∧
      (∀ call ∈ calls, call.Proper) ∧ page.EditsSlot 0 (page.free 0) ∧
      page.toImage = .ok image ∧ (page.free 0).toImage = .ok image' ∧
      image.length = 40 ∧ Layout.AgreeBut schema.size 0 image image' ∧
      ∀ region, Layout.Region.Has schema.size 40 region 3 → region = .slot 0 := by
  intro schema id row calls page kept image image'
  have hsmall : Layout.slotCount schema.size 40 ≤ Layout.maxSlots := by decide
  have hbuilt (n : Int32) (text : String) (h : Tuple.ofFields schema [.int n, .str text] = .ok (row n text)) :
      (row n text).Built := .ofFields h
  have hcalls : ∀ call ∈ calls, call.Proper :=
    List.forall_mem_cons.mpr ⟨hbuilt 1 "ab" rfl, List.forall_mem_singleton.mpr (hbuilt 2 "é" rfl)⟩
  have hplace : Tuple.record { row 0 "" with record := some ⟨id, 0⟩ } = some ⟨id, 0⟩ := rfl
  have hdelete : delete { row 0 "" with record := some ⟨id, 0⟩ } page = .ok () (page.free 0) :=
    delete_eq_ok.mpr ⟨⟨id, 0⟩, rfl, by decide +kernel, by decide +kernel, rfl⟩
  have hedit : page.EditsSlot 0 (page.free 0) := .delete hplace hdelete
  have himage : page.toImage = .ok image := by decide +kernel
  have himage' : (page.free 0).toImage = .ok image' := by decide +kernel
  obtain ⟨-, -, hframe, -, -, hunique⟩ := edit_stays_in_slot id schema 40 hsmall hcalls hedit
  obtain ⟨hlength, hagree, -⟩ := hframe image image' himage himage'
  have hhas : Layout.Region.Has schema.size 40 (.slot 0) 3 := ⟨by decide, by decide, by decide⟩
  exact ⟨by decide, hsmall, hcalls, hedit, himage, himage', hlength, hagree,
    fun region hother => hunique region (.slot 0) 3 hother hhas⟩

end Page
end RowStore
