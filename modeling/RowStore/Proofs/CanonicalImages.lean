import RowStore.Proofs.Writability

/-!
# Canonical images

In a canonical image the texts are UTF-8, no length word is greater than its width, and zeros stand
behind each text, in each free slot and behind the last slot. The main statement says that an image
of UTF-8 texts is written back in its canonical form, that exactly the canonical images are written
back unchanged, and that writing back twice is the same as once.
-/
namespace RowStore

theorem flatMap_eq_iff {α β : Type} {l : List α} {f g : α → List β}
    (h : ∀ a ∈ l, (f a).length = (g a).length) : l.flatMap f = l.flatMap g ↔ ∀ a ∈ l, f a = g a := by
  induction l with
  | nil => simp
  | cons a l ih =>
    have hrest := ih fun b hb => h b (List.mem_cons_of_mem _ hb)
    rw [List.flatMap_cons, List.flatMap_cons, List.forall_mem_cons, ← hrest]
    constructor
    · intro heq
      exact List.append_inj heq (h a List.mem_cons_self)
    · rintro ⟨hfirst, heq⟩
      rw [hfirst, heq]

theorem length_flatMap_congr {α β : Type} {l : List α} {f g : α → List β}
    (h : ∀ a ∈ l, (f a).length = (g a).length) : (l.flatMap f).length = (l.flatMap g).length := by
  rw [List.length_flatMap, List.length_flatMap, List.map_congr_left h]

namespace Word

theorem encode_decode_take {data : Bytes} (h : 4 ≤ data.length) : encode (decode data) = data.take 4 := by
  match data with
  | a :: b :: c :: d :: rest => rw [encode_decode, List.take_succ_cons]; rfl

theorem encodeInt_decodeInt {data : Bytes} (h : data.length = 4) : encodeInt (decodeInt data) = data := by
  have hword : (UInt32.ofNat (decode data)).toNat = decode data :=
    UInt32.toNat_ofNat_of_lt' (decode_lt data)
  change encode (UInt32.ofNat (decode data)).toNat = data
  rw [hword, encode_decode_take (Nat.le_of_eq h.symm), ← h, List.take_length]

end Word

namespace Text

theorem isValid_iff {data : Bytes} : IsValid data ↔ encode (decode data) = data :=
  ⟨encode_decode, fun h => h ▸ isValid_encode _⟩

instance (data : Bytes) : Decidable (IsValid data) := decidable_of_iff _ isValid_iff.symm

end Text

namespace Cell

instance : DecidablePred IsText := fun cell => inferInstanceAs (Decidable (Text.IsValid cell.textBytes))

/-- The bytes that are written for the value of the cell. -/
def written (cell : Cell) : Bytes := (cell.value.encode cell.type).getD []

/-- The cell with a length word no greater than the width and zeros behind its text. -/
def tidied (cell : Cell) : Bytes :=
  match cell.type with
  | .integer => cell.data
  | .char width =>
    (if Word.decode cell.data ≤ width.toNat then cell.data.take 4 else Word.encode width.toNat) ++
      cell.textBytes ++ List.replicate (width.toNat - cell.textBytes.length) 0

/-- The length word is no greater than the width, and zeros stand behind the text. -/
def IsTidy (cell : Cell) : Prop :=
  ∀ width, cell.type = .char width → Word.decode cell.data ≤ width.toNat ∧
    ∀ b ∈ cell.data.drop (4 + Word.decode cell.data), b = 0

variable {cell : Cell}

theorem encode_value (h : cell.Fits) : cell.value.encode cell.type = some cell.written := by
  have hsome : (cell.value.encode cell.type).isSome = true := by
    rw [Field.isSome_encode, fits_value_iff]
    exact h
  obtain ⟨data, hdata⟩ := Option.isSome_iff_exists.mp hsome
  rw [written, hdata, Option.getD_some]

theorem length_written (h : cell.Fits) : cell.written.length = cell.type.size :=
  Field.length_of_encode (encode_value h)

theorem fits_of_isText (hlength : cell.data.length = cell.type.size) (h : cell.IsText) : cell.Fits := by
  intro width htype
  rw [← Text.length_encode, Text.encode_decode h, length_textBytes htype hlength]
  exact Nat.min_le_right _ _

theorem written_of_integer (htype : cell.type = .integer) (hlength : cell.data.length = cell.type.size) :
    cell.written = cell.data := by
  rw [htype] at hlength
  simp only [written, value, htype, Field.encode, Option.getD_some]
  exact Word.encodeInt_decodeInt hlength

theorem written_of_char {width : UInt16} (htype : cell.type = .char width) (h : cell.Fits) :
    cell.written =
      Word.encode (Text.encode (Text.decode cell.textBytes)).length ++
        Text.encode (Text.decode cell.textBytes) ++
          List.replicate (width.toNat - (Text.encode (Text.decode cell.textBytes)).length) 0 := by
  have hfits : (Text.encode (Text.decode cell.textBytes)).length ≤ width.toNat := by
    rw [Text.length_encode]
    exact h width htype
  simp only [written, value, htype, Field.encode, if_pos hfits, Option.getD_some]

theorem written_of_isText (hlength : cell.data.length = cell.type.size) (h : cell.IsText) :
    cell.written = cell.tidied := by
  cases htype : cell.type with
  | integer => simp only [tidied, htype, written_of_integer htype hlength]
  | char width =>
    have hword : 4 ≤ cell.data.length := by
      rw [hlength, htype, ColumnType.size]
      omega
    rw [written_of_char htype (fits_of_isText hlength h), Text.encode_decode h,
      length_textBytes htype hlength]
    simp only [tidied, htype, length_textBytes htype hlength]
    by_cases hle : Word.decode cell.data ≤ width.toNat
    · rw [if_pos hle, Nat.min_eq_left hle, Word.encode_decode_take hword]
    · rw [if_neg hle, Nat.min_eq_right (Nat.le_of_not_le hle)]

theorem tidied_of_isTidy (hlength : cell.data.length = cell.type.size) (h : cell.IsTidy) :
    cell.tidied = cell.data := by
  cases htype : cell.type with
  | integer => simp only [tidied, htype]
  | char width =>
    obtain ⟨hle, hzeros⟩ := h width htype
    rw [htype, ColumnType.size] at hlength
    have htext : cell.textBytes = (cell.data.drop 4).take (Word.decode cell.data) := by
      simp only [textBytes, htype, Nat.min_eq_left hle]
    have hrest : List.replicate (width.toNat - Word.decode cell.data) 0 =
        (cell.data.drop 4).drop (Word.decode cell.data) := by
      rw [List.drop_drop, eq_comm, List.eq_replicate_iff]
      exact ⟨by rw [List.length_drop]; omega, hzeros⟩
    have htextLength : cell.textBytes.length = Word.decode cell.data := by
      rw [htext, List.length_take, List.length_drop]
      omega
    simp only [tidied, htype, if_pos hle, htextLength, hrest]
    rw [htext, List.append_assoc, List.take_append_drop, List.take_append_drop]

theorem written_eq_data_iff (hlength : cell.data.length = cell.type.size) (h : cell.Fits) :
    cell.written = cell.data ↔ cell.IsText ∧ cell.IsTidy := by
  constructor
  · intro hsame
    cases htype : cell.type with
    | integer =>
      constructor
      · simp only [IsText, textBytes, htype]
        exact Text.isValid_encode ""
      · intro width hchar
        rw [htype] at hchar
        cases hchar
    | char width =>
      have hfits := h width htype
      rw [← Text.length_encode] at hfits
      rw [written_of_char htype h] at hsame
      generalize hstored : Text.encode (Text.decode cell.textBytes) = stored at hfits hsame
      have hword : Word.decode cell.data = stored.length := by
        rw [← hsame, List.append_assoc, Word.decode_encode_append]
        have := width.toNat_lt
        exact Nat.mod_eq_of_lt (by omega)
      have hrest : cell.data.drop 4 = stored ++ List.replicate (width.toNat - stored.length) 0 := by
        rw [← hsame, List.append_assoc]
        exact List.drop_left' (Word.length_encode _)
      constructor
      · rw [IsText, Text.isValid_iff, hstored]
        simp only [textBytes, htype, hword, Nat.min_eq_left hfits, hrest, List.take_left]
      · intro other hother
        rw [htype] at hother
        cases hother
        refine ⟨by rwa [hword], ?_⟩
        rw [← List.drop_drop, hrest, hword, List.drop_left]
        exact fun b hb => List.eq_of_mem_replicate hb
  · rintro ⟨htext, htidy⟩
    rw [written_of_isText hlength htext, tidied_of_isTidy hlength htidy]

end Cell

namespace Layout

theorem parts_eq (tupleSize : Nat) (image : Bytes) :
    image.take (start tupleSize image) ++
      (List.range (slotCount tupleSize image.length)).flatMap (slotBytes tupleSize image) ++
        image.drop (stop tupleSize image) = image := by
  have hslots (count : Nat) (h : count ≤ slotCount tupleSize image.length) :
      image.take (start tupleSize image) ++ (List.range count).flatMap (slotBytes tupleSize image) =
        image.take (start tupleSize image + count * tupleSize) := by
    induction count with
    | zero => simp
    | succ count ih =>
      rw [List.range_succ, List.flatMap_append, ← List.append_assoc, ih (by omega),
        List.flatMap_singleton, slotBytes, Nat.succ_mul, ← Nat.add_assoc]
      exact (List.take_add ..).symm
  rw [hslots _ (Nat.le_refl _), stop, List.take_append_drop]

end Layout

namespace Schema
variable {schema : Schema} {image : Bytes}

/-- The slot with its cells put as `put` says, or zeros if it is free. -/
def slotWith (schema : Schema) (image : Bytes) (put : Cell → Bytes) (slot : Nat) : Bytes :=
  if Layout.inUse schema.size image slot then (schema.cells image slot).flatMap put
  else List.replicate schema.size 0

/-- The image with each cell in use put as `put` says, and zeros in all other places behind the bitmap. -/
def imageWith (schema : Schema) (image : Bytes) (put : Cell → Bytes) : Bytes :=
  image.take (Layout.start schema.size image) ++
    (List.range (Layout.slotCount schema.size image.length)).flatMap (schema.slotWith image put) ++
      List.replicate (image.length - Layout.stop schema.size image) 0

/-- The texts are UTF-8, no length word is greater than its width, and zeros stand behind each text, in
each free slot and behind the last slot. -/
structure Canonical (schema : Schema) (image : Bytes) : Prop where
  texts : schema.EachCell image Cell.IsText
  tidy : schema.EachCell image Cell.IsTidy
  free : ∀ slot < Layout.slotCount schema.size image.length, Layout.inUse schema.size image slot = false →
    ∀ b ∈ Layout.slotBytes schema.size image slot, b = 0
  rest : ∀ b ∈ image.drop (Layout.stop schema.size image), b = 0

theorem flatMap_data_cells {slot : Nat} (h : slot < Layout.slotCount schema.size image.length) :
    (schema.cells image slot).flatMap Cell.data = Layout.slotBytes schema.size image slot :=
  Cell.flatMap_data_cut (Layout.length_slotBytes h)

/-- What is put has the size of its column. -/
def Sized (schema : Schema) (image : Bytes) (put : Cell → Bytes) : Prop :=
  schema.EachCell image fun cell => (put cell).length = cell.type.size

variable {put : Cell → Bytes}

theorem Sized.length_eq (h : schema.Sized image put) {slot : Nat}
    (hused : Layout.inUse schema.size image slot = true) :
    ∀ cell ∈ schema.cells image slot, (put cell).length = cell.data.length :=
  fun cell hcell =>
    (h slot hused cell hcell).trans (length_of_mem_cells (Layout.lt_of_inUse hused) hcell).symm

theorem Sized.length_slotWith (h : schema.Sized image put) {slot : Nat}
    (hslot : slot < Layout.slotCount schema.size image.length) :
    (schema.slotWith image put slot).length = schema.size := by
  rw [slotWith]
  split
  · next hused =>
    rw [length_flatMap_congr (h.length_eq hused), flatMap_data_cells hslot,
      Layout.length_slotBytes hslot]
  · exact List.length_replicate

theorem Sized.length_slots (h : schema.Sized image put) :
    ((List.range (Layout.slotCount schema.size image.length)).flatMap
      (schema.slotWith image put)).length =
        Layout.slotCount schema.size image.length * schema.size := by
  have hall : ∀ slot ∈ List.range (Layout.slotCount schema.size image.length),
      (schema.slotWith image put slot).length = schema.size :=
    fun slot hslot => h.length_slotWith (List.mem_range.mp hslot)
  rw [List.length_flatMap, List.map_congr_left hall, List.map_const', List.sum_replicate_nat,
    List.length_range]

theorem Sized.length_imageWith (h : schema.Sized image put) :
    (schema.imageWith image put).length = image.length := by
  have hfits := Layout.stop_le schema.size image
  rw [Layout.stop] at hfits
  rw [imageWith, Layout.stop, List.length_append, List.length_append, h.length_slots, List.length_take,
    List.length_replicate]
  omega

theorem slotWith_eq_iff {slot : Nat} (h : schema.Sized image put)
    (hslot : slot < Layout.slotCount schema.size image.length) :
    schema.slotWith image put slot = Layout.slotBytes schema.size image slot ↔
      (Layout.inUse schema.size image slot = true → ∀ cell ∈ schema.cells image slot,
        put cell = cell.data) ∧
      (Layout.inUse schema.size image slot = false →
        ∀ b ∈ Layout.slotBytes schema.size image slot, b = 0) := by
  rw [slotWith]
  cases hused : Layout.inUse schema.size image slot with
  | true =>
    rw [if_pos rfl, ← flatMap_data_cells hslot, flatMap_eq_iff (h.length_eq hused)]
    simp
  | false =>
    rw [if_neg Bool.false_ne_true, eq_comm, List.eq_replicate_iff, Layout.length_slotBytes hslot]
    simp

theorem imageWith_eq_iff (h : schema.Sized image put) :
    schema.imageWith image put = image ↔
      schema.EachCell image (fun cell => put cell = cell.data) ∧
      (∀ slot < Layout.slotCount schema.size image.length,
        Layout.inUse schema.size image slot = false →
          ∀ b ∈ Layout.slotBytes schema.size image slot, b = 0) ∧
      ∀ b ∈ image.drop (Layout.stop schema.size image), b = 0 := by
  have hlengths : ∀ slot ∈ List.range (Layout.slotCount schema.size image.length),
      (schema.slotWith image put slot).length = (Layout.slotBytes schema.size image slot).length := by
    intro slot hslot
    have hslot := List.mem_range.mp hslot
    rw [h.length_slotWith hslot, Layout.length_slotBytes hslot]
  have hslots := length_flatMap_congr hlengths
  have hparts : schema.imageWith image put = image ↔
      (List.range (Layout.slotCount schema.size image.length)).flatMap (schema.slotWith image put) =
        (List.range (Layout.slotCount schema.size image.length)).flatMap
          (Layout.slotBytes schema.size image) ∧
      List.replicate (image.length - Layout.stop schema.size image) 0 =
          image.drop (Layout.stop schema.size image) := by
    conv_lhs => rhs; rw [← Layout.parts_eq schema.size image]
    rw [imageWith]
    constructor
    · intro heq
      obtain ⟨hfront, hrest⟩ := List.append_inj heq (by rw [List.length_append, List.length_append, hslots])
      exact ⟨List.append_cancel_left hfront, hrest⟩
    · rintro ⟨hfront, hrest⟩
      rw [hfront, hrest]
  rw [hparts, flatMap_eq_iff hlengths, eq_comm (b := image.drop _), List.eq_replicate_iff,
    List.length_drop]
  constructor
  · rintro ⟨hall, _, hzeros⟩
    refine ⟨fun slot hused => ?_, fun slot hslot => ?_, hzeros⟩
    · have hslot := Layout.lt_of_inUse hused
      exact ((slotWith_eq_iff h hslot).mp (hall slot (List.mem_range.mpr hslot))).1 hused
    · exact ((slotWith_eq_iff h hslot).mp (hall slot (List.mem_range.mpr hslot))).2
  · rintro ⟨hcells, hfree, hzeros⟩
    refine ⟨fun slot hslot => ?_, rfl, hzeros⟩
    have hslot := List.mem_range.mp hslot
    exact (slotWith_eq_iff h hslot).mpr ⟨hcells slot, hfree slot hslot⟩

theorem sized_written (h : schema.EachCell image Cell.Fits) : schema.Sized image Cell.written :=
  fun slot hused cell hcell => Cell.length_written (h slot hused cell hcell)

theorem EachCell.fits (h : schema.EachCell image Cell.IsText) : schema.EachCell image Cell.Fits :=
  fun slot hused cell hcell =>
    Cell.fits_of_isText (length_of_mem_cells (Layout.lt_of_inUse hused) hcell) (h slot hused cell hcell)

theorem imageWith_congr {other : Cell → Bytes}
    (h : schema.EachCell image fun cell => put cell = other cell) :
    schema.imageWith image put = schema.imageWith image other := by
  have hslots : schema.slotWith image put = schema.slotWith image other := by
    funext slot
    rw [slotWith, slotWith]
    split
    · next hused => rw [List.flatMap_congr (h slot hused)]
    · rfl
  rw [imageWith, imageWith, hslots]

end Schema

theorem Cell.encodeFields_values {cells : List Cell} (index : Nat) (h : ∀ cell ∈ cells, cell.Fits) :
    Tuple.encodeFields index (cells.map Cell.value) (cells.map Cell.type) =
      .ok (cells.flatMap Cell.written) := by
  induction cells generalizing index with
  | nil => rfl
  | cons cell cells ih =>
    have hrest := ih (index + 1) fun other hmem => h other (List.mem_cons_of_mem _ hmem)
    rw [List.map_cons, List.map_cons, Tuple.encodeFields, Cell.encode_value (h cell List.mem_cons_self)]
    dsimp only
    rw [hrest]
    rfl

namespace Page

theorem encodeSlots_map {width : Nat} {numbers : List Nat} {slot : Nat → Option Tuple} {data : Nat → Bytes}
    (h : ∀ n, encodeSlot width (slot n) = .ok (data n)) :
    encodeSlots width (numbers.map slot) = .ok (numbers.flatMap data) := by
  induction numbers with
  | nil => rfl
  | cons n numbers ih =>
    rw [List.map_cons, encodeSlots, h n, ih]
    rfl

theorem toImage_stored (id : PageId) {schema : Schema} {image : Bytes}
    (h : schema.EachCell image Cell.Fits) :
    (stored id schema image).toImage = .ok (schema.imageWith image Cell.written) := by
  have hslot (slot : Nat) : encodeSlot schema.size (storedSlot id schema image slot) =
      .ok (schema.slotWith image Cell.written slot) := by
    rw [storedSlot, Schema.slotWith]
    cases hused : Layout.inUse schema.size image slot with
    | true =>
      rw [if_pos rfl, if_pos rfl, encodeSlot, Tuple.encode, ← Cell.encodeFields_values 0 (h slot hused),
        Schema.map_type_cells]
    | false => rfl
  have hbody : encodeSlots schema.size (stored id schema image).slots =
      .ok ((List.range (Layout.slotCount schema.size image.length)).flatMap
        (schema.slotWith image Cell.written)) := encodeSlots_map hslot
  have hheader : (stored id schema image).header.bytes.length = Layout.start schema.size image :=
    List.length_take_of_le (Layout.start_le schema.size image)
  change (encodeSlots schema.size (stored id schema image).slots).map _ = _
  rw [hbody]
  refine congrArg Except.ok ?_
  change image.take (Layout.start schema.size image) ++ _ ++ List.replicate (image.length - _) 0 = _
  rw [Schema.imageWith, Layout.stop, List.length_append, (Schema.sized_written h).length_slots, hheader]

/-- The image that is written for the page that was read. -/
def resave (id : PageId) (schema : Schema) (image : Bytes) : Except StoreError Bytes :=
  ofImage id schema image >>= toImage

theorem resave_eq (id : PageId) (schema : Schema) (image : Bytes) :
    resave id schema image = (stored id schema image).toImage := by
  rw [resave, ofImage_eq]
  rfl

theorem resave_eq_self_iff (id : PageId) (schema : Schema) (image : Bytes) :
    resave id schema image = .ok image ↔ schema.Canonical image := by
  have hiff (hfits : schema.EachCell image Cell.Fits) :
      resave id schema image = .ok image ↔ schema.Canonical image := by
    rw [resave_eq, toImage_stored id hfits, Except.ok.injEq,
      Schema.imageWith_eq_iff (Schema.sized_written hfits)]
    have hcell (slot : Nat) (hused : Layout.inUse schema.size image slot = true) (cell : Cell)
        (hmem : cell ∈ schema.cells image slot) :
        cell.written = cell.data ↔ cell.IsText ∧ cell.IsTidy :=
      Cell.written_eq_data_iff (Schema.length_of_mem_cells (Layout.lt_of_inUse hused) hmem)
        (hfits slot hused cell hmem)
    constructor
    · rintro ⟨hsame, hfree, hrest⟩
      have hboth (slot : Nat) (hused : Layout.inUse schema.size image slot = true) (cell : Cell)
          (hmem : cell ∈ schema.cells image slot) := (hcell slot hused cell hmem).mp (hsame slot hused cell hmem)
      exact ⟨fun slot hused cell hmem => (hboth slot hused cell hmem).1,
        fun slot hused cell hmem => (hboth slot hused cell hmem).2, hfree, hrest⟩
    · intro h
      exact ⟨fun slot hused cell hmem => (hcell slot hused cell hmem).mpr
        ⟨h.texts slot hused cell hmem, h.tidy slot hused cell hmem⟩, h.free, h.rest⟩
  -- Either side gives that the values fit: an image was written, or the texts are UTF-8.
  constructor
  · intro hsame
    refine (hiff ?_).mp hsame
    rw [resave_eq] at hsame
    exact (writable_stored_iff id schema image).mp ⟨image, hsame⟩
  · intro h
    exact (hiff h.texts.fits).mpr h

/-- An image of UTF-8 texts is written back tidied: no length word is greater than its width, the bitmap
is kept, and zeros stand behind each text, in each free slot and behind the last slot. Exactly the
canonical images are written back unchanged, and what was written back is left so the next time. -/
theorem resave_tidies (id : PageId) (schema : Schema) (image : Bytes) :
    (schema.EachCell image Cell.IsText →
      resave id schema image = .ok (schema.imageWith image Cell.tidied) ∧
        (schema.imageWith image Cell.tidied).length = image.length) ∧
      (resave id schema image = .ok image ↔ schema.Canonical image) ∧
      ∀ written, resave id schema image = .ok written → resave id schema written = .ok written := by
  refine ⟨fun h => ?_, resave_eq_self_iff id schema image, fun written hwritten => ?_⟩
  · have hsame : schema.EachCell image fun cell => cell.written = cell.tidied :=
      fun slot hused cell hmem => Cell.written_of_isText
        (Schema.length_of_mem_cells (Layout.lt_of_inUse hused) hmem) (h slot hused cell hmem)
    rw [resave_eq, toImage_stored id h.fits, ← Schema.imageWith_congr hsame]
    exact ⟨rfl, (Schema.sized_written h.fits).length_imageWith⟩
  · rw [resave_eq] at hwritten ⊢
    rw [(stored_of_toImage hwritten).2]
    exact hwritten

/-- An image with a length word past its width, a letter of two bytes, set bits without slots and other
bytes wherever nothing is stored. -/
theorem resave_tidies_garbage :
    let schema : Schema := ⟨[{ type := .integer }, { type := .char 3 }], List.cons_ne_nil _ _⟩
    let image : Bytes := [0xE5] ++ [0, 0, 0, 7, 0, 0, 0, 9, 0x61, 0x62, 0x63] ++ List.replicate 11 0xAA ++
      [0xFF, 0xFF, 0xFF, 0xFE, 0, 0, 0, 2, 0xC3, 0xA9, 0x77] ++ List.replicate 6 0xBB
    let tidy : Bytes := [0xE5] ++ [0, 0, 0, 7, 0, 0, 0, 3, 0x61, 0x62, 0x63] ++ List.replicate 11 0 ++
      [0xFF, 0xFF, 0xFF, 0xFE, 0, 0, 0, 2, 0xC3, 0xA9, 0] ++ List.replicate 6 0
    let id : PageId := ⟨.number 7, 2⟩
    schema.EachCell image Cell.IsText ∧ resave id schema image = .ok tidy ∧ ¬ schema.Canonical image ∧
      schema.Canonical tidy := by
  intro schema image tidy id
  have htexts : schema.EachCell image Cell.IsText := by decide +kernel
  have htidy : schema.imageWith image Cell.tidied = tidy := by decide +kernel
  obtain ⟨htidies, hself, htwice⟩ := resave_tidies id schema image
  have hresave : resave id schema image = .ok tidy := htidy ▸ (htidies htexts).1
  have hchanged : tidy ≠ image := by decide
  refine ⟨htexts, hresave, fun hcanonical => ?_, (resave_tidies id schema tidy).2.1.mp (htwice tidy hresave)⟩
  have hsame := hself.mpr hcanonical
  rw [hresave, Except.ok.injEq] at hsame
  exact hchanged hsame

end Page
end RowStore
