import RowStore.Storage.TableFile

/-!
# The rows of a page

The rows of a page are the fields in its slots. Every image of the size of a page can be read, the
pages of a table file have one shape, and a page of that shape which was written is read back with
the same rows. The edits of tuples keep the shape and change one row.
-/
namespace RowStore

namespace Tuple

/-- There is one field for each column. -/
def Complete (t : Tuple) : Prop := t.fields.length = t.schema.types.length

/-- The tuples that there are: made from fields, read, changed, renamed, or put at some place. -/
inductive Built : Tuple → Prop
  | ofFields {schema : Schema} {fields : List Field} {t : Tuple}
      (h : ofFields schema fields = .ok t) : Built t
  | decode {schema : Schema} {data : Bytes} {t : Tuple} (h : decode schema data = some t) : Built t
  | setField {t t' : Tuple} {index : Nat} {field : Field} (built : Built t)
      (h : t.setField index field = .ok t') : Built t'
  | resetSchema {t t' : Tuple} {schema : Schema} (built : Built t)
      (h : t.resetSchema schema = .ok t') : Built t'
  | moved {t : Tuple} (built : Built t) (record : Option RecordId) : Built { t with record }

theorem complete_of_ofFields {schema : Schema} {fields : List Field} {t : Tuple}
    (h : ofFields schema fields = .ok t) : t.Complete := by
  unfold ofFields at h
  split at h
  · next hlength =>
    split at h <;> cases h
    rw [Complete, hlength, Schema.length_types]
  · cases h

theorem complete_of_decode {schema : Schema} {data : Bytes} {t : Tuple}
    (h : decode schema data = some t) : t.Complete ∧ t.schema = schema ∧ t.record = none := by
  rw [decode, Option.map_eq_some_iff] at h
  obtain ⟨fields, hfields, rfl⟩ := h
  exact ⟨length_of_decodeFields hfields, rfl, rfl⟩

theorem Built.complete {t : Tuple} (h : t.Built) : t.Complete := by
  induction h with
  | ofFields h => exact complete_of_ofFields h
  | decode h => exact (complete_of_decode h).1
  | setField _ h ih =>
    unfold Tuple.setField at h
    split at h
    · cases h
    · split at h <;> cases h
      rw [Complete, List.length_set]
      exact ih
  | resetSchema _ h ih =>
    unfold Tuple.resetSchema at h
    split at h
    · next hagrees =>
      cases h
      rw [Complete, hagrees]
      exact ih
    · cases h
  | moved _ _ ih => exact ih

theorem fits_of_checkField {index : Nat} {field : Field} {type : ColumnType}
    (h : checkField index field type = .ok ()) : field.fits type = true := by
  unfold checkField at h
  by_cases hfits : field.fits type = true
  · exact hfits
  · rw [if_neg hfits] at h
    cases field <;> cases type <;> cases h

theorem fits_of_checkFields {index : Nat} {fields : List Field} {types : List ColumnType}
    (h : checkFields index fields types = .ok ()) :
    ∀ pair ∈ fields.zip types, pair.1.fits pair.2 = true := by
  induction fields generalizing index types with
  | nil =>
    intro pair hmem
    cases hmem
  | cons field fields ih =>
    cases types with
    | nil =>
      intro pair hmem
      cases hmem
    | cons type types =>
      rw [checkFields] at h
      split at h
      · cases h
      · next hcheck =>
        intro pair hmem
        rcases List.mem_cons.mp hmem with rfl | hmem
        · exact fits_of_checkField hcheck
        · exact ih h pair hmem

theorem valid_of_ofFields {schema : Schema} {fields : List Field} {t : Tuple}
    (h : ofFields schema fields = .ok t) : t.Valid ∧ t.schema = schema := by
  have hcomplete := complete_of_ofFields h
  rw [ofFields] at h
  split at h
  · split at h
    · cases h
    · next hcheck =>
      cases h
      exact ⟨⟨hcomplete, fits_of_checkFields hcheck⟩, rfl⟩
  · cases h

theorem checkField_of_fits {field : Field} {type : ColumnType} (h : field.fits type = true) (index : Nat) :
    checkField index field type = .ok () := by
  unfold checkField
  rw [if_pos h]

theorem checkFields_of_fits {fields : List Field} {types : List ColumnType}
    (h : ∀ pair ∈ fields.zip types, pair.1.fits pair.2 = true) (index : Nat) :
    checkFields index fields types = .ok () := by
  induction fields generalizing types index with
  | nil => cases types <;> rfl
  | cons field fields ih =>
    cases types with
    | nil => rfl
    | cons type types =>
      rw [checkFields, checkField_of_fits (h (field, type) List.mem_cons_self)]
      exact ih (fun pair hmem => h pair (List.mem_cons_of_mem _ hmem)) (index + 1)

theorem ofFields_of_valid {schema : Schema} {fields : List Field}
    (h : (⟨schema, fields, none⟩ : Tuple).Valid) : ofFields schema fields = .ok ⟨schema, fields, none⟩ := by
  have hlength : fields.length = schema.fieldCount := h.1.trans schema.length_types
  rw [ofFields, if_pos hlength, checkFields_of_fits h.2]

theorem Valid.complete {t : Tuple} (h : t.Valid) : t.Complete := h.1

theorem Valid.built {t : Tuple} (h : t.Valid) : t.Built := .moved (.ofFields (ofFields_of_valid h)) t.record

theorem fits_of_encodeFields {index : Nat} {fields : List Field} {types : List ColumnType}
    {data : Bytes} (h : encodeFields index fields types = .ok data) :
    ∀ pair ∈ fields.zip types, pair.1.fits pair.2 = true := by
  induction fields generalizing index types data with
  | nil =>
    intro pair hmem
    cases hmem
  | cons field fields ih =>
    cases types with
    | nil =>
      intro pair hmem
      cases hmem
    | cons type types =>
      obtain ⟨head, tail, hhead, htail, _⟩ := encodeFields_cons_eq_ok.mp h
      intro pair hmem
      rcases List.mem_cons.mp hmem with rfl | hmem
      · rw [← Field.isSome_encode, hhead, Option.isSome_some]
      · exact ih htail pair hmem

theorem valid_of_encode {t : Tuple} {data : Bytes} (hcomplete : t.Complete)
    (h : t.encode = .ok data) : t.Valid :=
  ⟨hcomplete, fits_of_encodeFields h⟩

theorem decode_of_encode {t : Tuple} {schema : Schema} {data : Bytes}
    (hagrees : t.schema.Agrees schema) (hcomplete : t.Complete) (h : t.encode = .ok data) :
    data.length = schema.size ∧ decode schema data = some { schema, fields := t.fields } := by
  obtain ⟨stored, hstored, hsize, hfields⟩ := encode_of_valid (valid_of_encode hcomplete h)
  rw [h] at hstored
  cases hstored
  refine ⟨hsize.trans hagrees.size_eq, ?_⟩
  rw [decode, ← hagrees, ← List.append_nil data, hfields []]
  rfl

end Tuple

namespace TableFile

/-- The slots of each page of the file. -/
def slotCount (file : TableFile) : Nat := Layout.slotCount file.schema.size file.pageSize

end TableFile

namespace Page

theorem decodeSlots_spec (id : PageId) (schema : Schema) (slot : Nat) (bits : List Bool)
    (data : Bytes) (h : bits.length * schema.size ≤ data.length) :
    ∃ slots, decodeSlots id schema slot bits data = .ok slots ∧
      slots.map Option.isSome = bits ∧
      ∀ (i : Nat) (t : Tuple), slots[i]? = some (some t) →
        t.schema = schema ∧ t.Complete ∧ t.record = some ⟨id, UInt16.ofNat (slot + i)⟩ := by
  induction bits generalizing slot data with
  | nil => exact ⟨[], rfl, rfl, fun i t hi => by cases hi⟩
  | cons used bits ih =>
    rw [List.length_cons, Nat.succ_mul] at h
    have hrest : bits.length * schema.size ≤ (data.drop schema.size).length := by
      rw [List.length_drop]
      omega
    obtain ⟨slots, hslots, hbits, hstored⟩ := ih (slot + 1) _ hrest
    have hshift (i : Nat) : slot + 1 + i = slot + (i + 1) := by omega
    cases used with
    | false =>
      refine ⟨none :: slots, ?_, ?_, ?_⟩
      · simp only [decodeSlots, Bool.false_eq_true, if_false, hslots]
        rfl
      · rw [List.map_cons, hbits, Option.isSome_none]
      · intro i t hi
        cases i with
        | zero => cases hi
        | succ i =>
          rw [← hshift]
          exact hstored i t hi
    | true =>
      have hlength : (data.take schema.size).length = schema.size := by
        rw [List.length_take]
        omega
      have hsome : (Tuple.decode schema (data.take schema.size)).isSome = true := by
        rw [Tuple.isSome_decode, hlength]
        exact decide_eq_true (Nat.le_refl _)
      obtain ⟨first, hfirst⟩ := Option.isSome_iff_exists.mp hsome
      obtain ⟨hcomplete, hschema, _⟩ := Tuple.complete_of_decode hfirst
      refine ⟨some { first with record := some ⟨id, UInt16.ofNat slot⟩ } :: slots, ?_, ?_, ?_⟩
      · simp only [decodeSlots, if_true, hfirst, hslots]
        rfl
      · rw [List.map_cons, hbits, Option.isSome_some]
      · intro i t hi
        cases i with
        | zero =>
          cases hi
          exact ⟨hschema, hcomplete, rfl⟩
        | succ i =>
          rw [← hshift]
          exact hstored i t hi

theorem decodeSlots_encodeSlots {schema : Schema} {slots : List (Option Tuple)} {body : Bytes}
    (hshape : ∀ t, some t ∈ slots → t.schema.Agrees schema ∧ t.Complete)
    (h : encodeSlots schema.size slots = .ok body) :
    body.length = slots.length * schema.size ∧
      ∀ id slot rest, ∃ read,
        decodeSlots id schema slot (slots.map Option.isSome) (body ++ rest) = .ok read ∧
          read.map (Option.map Tuple.fields) = slots.map (Option.map Tuple.fields) := by
  induction slots generalizing body with
  | nil =>
    cases h
    exact ⟨by simp, fun id slot rest => ⟨[], rfl, rfl⟩⟩
  | cons first slots ih =>
    rw [encodeSlots] at h
    split at h
    · cases h
    · next head hhead =>
      obtain ⟨tail, htail, rfl⟩ := map_eq_ok.mp h
      obtain ⟨hlength, hback⟩ := ih (fun t ht => hshape t (List.mem_cons_of_mem _ ht)) htail
      cases first with
      | none =>
        cases hhead
        refine ⟨by simp [hlength, Nat.succ_mul, Nat.add_comm], fun id slot rest => ?_⟩
        obtain ⟨read, hread, hrows⟩ := hback id (slot + 1) rest
        refine ⟨none :: read, ?_, by simp [hrows]⟩
        have hdrop : ((List.replicate schema.size (0 : UInt8) ++ tail) ++ rest).drop schema.size =
            tail ++ rest := by
          rw [List.append_assoc, List.drop_left' List.length_replicate]
        simp only [List.map_cons, Option.isSome_none, decodeSlots, Bool.false_eq_true, if_false,
          hdrop, hread]
        rfl
      | some t =>
        obtain ⟨hagrees, hcomplete⟩ := hshape t List.mem_cons_self
        obtain ⟨hsize, hdecode⟩ := Tuple.decode_of_encode hagrees hcomplete hhead
        refine ⟨by simp [hlength, hsize, Nat.succ_mul, Nat.add_comm], fun id slot rest => ?_⟩
        obtain ⟨read, hread, hrows⟩ := hback id (slot + 1) rest
        have htake : (head ++ tail ++ rest).take schema.size = head := by
          rw [List.append_assoc, List.take_left' hsize]
        have hdrop : (head ++ tail ++ rest).drop schema.size = tail ++ rest := by
          rw [List.append_assoc, List.drop_left' hsize]
        refine ⟨some { schema, fields := t.fields, record := some ⟨id, UInt16.ofNat slot⟩ } :: read,
          ?_, by simp [hrows]⟩
        simp only [List.map_cons, Option.isSome_some, decodeSlots, if_true, htake, hdrop, hdecode,
          hread]
        rfl

theorem fields_decodeSlots_congr {schema other : Schema} (hagrees : other.Agrees schema)
    {id id' : PageId} {slot slot' : Nat} {bits : List Bool} {data : Bytes}
    {slots slots' : List (Option Tuple)} (h : decodeSlots id schema slot bits data = .ok slots)
    (h' : decodeSlots id' other slot' bits data = .ok slots') :
    slots'.map (Option.map Tuple.fields) = slots.map (Option.map Tuple.fields) := by
  have hsize := hagrees.size_eq
  induction bits generalizing slot slot' data slots slots' with
  | nil =>
    cases h
    cases h'
    rfl
  | cons used bits ih =>
    rw [decodeSlots] at h h'
    cases used with
    | false =>
      obtain ⟨rest, hrest, rfl⟩ := map_eq_ok.mp h
      obtain ⟨rest', hrest', rfl⟩ := map_eq_ok.mp h'
      rw [hsize] at hrest'
      rw [List.map_cons, List.map_cons, ih hrest hrest']
    | true =>
      simp only [if_true, hsize] at h h'
      split at h
      · cases h
      · next t ht =>
        split at h'
        · cases h'
        · next t' ht' =>
          obtain ⟨rest, hrest, rfl⟩ := map_eq_ok.mp h
          obtain ⟨rest', hrest', rfl⟩ := map_eq_ok.mp h'
          have hfields : t'.fields = t.fields := by
            obtain ⟨fields, hread, rfl⟩ := Option.map_eq_some_iff.mp ht
            obtain ⟨fields', hread', rfl⟩ := Option.map_eq_some_iff.mp ht'
            rw [hagrees, hread] at hread'
            exact (Option.some.inj hread').symm
          simp only [List.map_cons, Option.map_some, hfields, ih hrest hrest']

theorem encodeSlots_of_valid {slots : List (Option Tuple)} (width : Nat)
    (h : ∀ t, some t ∈ slots → t.Valid) : ∃ body, encodeSlots width slots = .ok body := by
  induction slots with
  | nil => exact ⟨[], rfl⟩
  | cons first slots ih =>
    obtain ⟨tail, htail⟩ := ih fun t ht => h t (List.mem_cons_of_mem _ ht)
    cases first with
    | none => exact ⟨_, by simp only [encodeSlots, encodeSlot, htail]; rfl⟩
    | some t =>
      obtain ⟨data, hdata, _⟩ := Tuple.encode_of_valid (h t List.mem_cons_self)
      exact ⟨_, by simp only [encodeSlots, encodeSlot, hdata, htail]; rfl⟩

/-- The fields in each slot. -/
def rows (page : Page) : List (Option (List Field)) := page.slots.map (Option.map Tuple.fields)

/-- The shape of a page: as many slots as fit, marked in the bitmap where they are in use, and in them
complete tuples of the page's schema that know their place. -/
structure Shaped (page : Page) : Prop where
  slots : page.numSlots = Layout.slotCount page.schema.size page.size
  header : page.header.bytes.length = Layout.headerSize page.numSlots
  marked : ∀ slot < page.numSlots, page.header.get slot = (page.tuple? slot).isSome
  stored : ∀ slot t, page.tuple? slot = some t →
    t.schema.Agrees page.schema ∧ t.Complete ∧ t.record = some (page.record slot)

/-- The shape of the pages of a table file: as many slots as fit, marked in the bitmap where they
are in use, and in them complete tuples of the file's schema that know their place. -/
structure WellFormed (file : TableFile) (page : Page) : Prop where
  home : page.id.table = file.id
  schema : page.schema = file.schema
  size : page.size = file.pageSize
  slots : page.numSlots = file.slotCount
  header : page.header.bytes.length = Layout.headerSize file.slotCount
  marked : ∀ slot < file.slotCount, page.header.get slot = (page.tuple? slot).isSome
  stored : ∀ slot t, page.tuple? slot = some t →
    t.schema.Agrees file.schema ∧ t.Complete ∧ t.record = some (page.record slot)

theorem WellFormed.shaped {file : TableFile} {page : Page} (h : page.WellFormed file) :
    page.Shaped := by
  constructor
  case slots => rw [h.slots, h.schema, h.size, TableFile.slotCount]
  case header => rw [h.header, h.slots]
  case marked => rw [h.slots]; exact h.marked
  case stored => rw [h.schema]; exact h.stored

theorem Shaped.wellFormed {file : TableFile} {page : Page} (h : page.Shaped)
    (hhome : page.id.table = file.id) (hschema : page.schema = file.schema)
    (hsize : page.size = file.pageSize) : page.WellFormed file := by
  have hslots : page.numSlots = file.slotCount := by
    rw [h.slots, hschema, hsize, TableFile.slotCount]
  constructor
  case home => exact hhome
  case schema => exact hschema
  case size => exact hsize
  case slots => exact hslots
  case header => rw [← hslots]; exact h.header
  case marked => rw [← hslots]; exact h.marked
  case stored => rw [← hschema]; exact h.stored

theorem tuple?_eq_some_iff {page : Page} {slot : Nat} {t : Tuple} :
    page.tuple? slot = some t ↔ page.slots[slot]? = some (some t) := by
  rw [tuple?, Option.join_eq_some_iff]

/-- The tuples of a page are those in its slots. -/
theorem mem_tuples_iff {page : Page} {t : Tuple} :
    t ∈ page.tuples ↔ ∃ slot, page.tuple? slot = some t := by
  rw [mem_tuples, List.mem_iff_getElem?]
  simp only [tuple?_eq_some_iff]

theorem getElem?_rows (page : Page) (slot : Nat) :
    page.rows[slot]? = page.slots[slot]?.map (Option.map Tuple.fields) := by
  rw [rows, List.getElem?_map]

theorem map_fields_tuple? (page : Page) (slot : Nat) :
    (page.tuple? slot).map Tuple.fields = page.rows[slot]?.join := by
  rw [tuple?, getElem?_rows]
  cases page.slots[slot]? with
  | none => rfl
  | some stored => cases stored <;> rfl

theorem Shaped.bits {page : Page} (h : page.Shaped) :
    page.header.bits page.numSlots = page.slots.map Option.isSome := by
  apply List.ext_getElem?
  intro slot
  have hslots : page.slots.length = page.numSlots := rfl
  rw [Bitmap.bits, List.getElem?_map, List.getElem?_map]
  by_cases hslot : slot < page.numSlots
  · have hmarked := h.marked slot hslot
    rw [tuple?] at hmarked
    rw [List.getElem?_range hslot, Option.map_some, hmarked,
      List.getElem?_eq_getElem (by omega : slot < page.slots.length)]
    rfl
  · rw [List.getElem?_eq_none (by rw [List.length_range]; omega),
      List.getElem?_eq_none (by omega : page.slots.length ≤ slot)]
    rfl

theorem shaped_ofImage (id : PageId) (schema : Schema) (image : Bytes) :
    ∃ page, ofImage id schema image = .ok page ∧ page.id = id ∧ page.schema = schema ∧
      page.size = image.length ∧ page.isDirty = false ∧ page.Shaped := by
  have hfits := Layout.headerSize_add_slots_le schema.size image.length
  generalize hcount : Layout.slotCount schema.size image.length = count at hfits
  have hlength : ((⟨image.take (Layout.headerSize count)⟩ : Bitmap).bits count).length = count := by
    rw [Bitmap.bits, List.length_map, List.length_range]
  obtain ⟨slots, hslots, hbits, hstored⟩ := decodeSlots_spec id schema 0
    ((⟨image.take (Layout.headerSize count)⟩ : Bitmap).bits count)
    (image.drop (Layout.headerSize count)) (by rw [hlength, List.length_drop]; omega)
  refine ⟨{ id, schema, size := image.length, slots
            header := ⟨image.take (Layout.headerSize count)⟩ }, ?_, rfl, rfl, rfl, rfl, ?_⟩
  · simp only [ofImage, hcount, hslots]
    rfl
  have hslotsLength : slots.length = count := by
    rw [← hlength, ← hbits, List.length_map]
  constructor
  case slots => exact hslotsLength.trans hcount.symm
  case header =>
    change (image.take _).length = Layout.headerSize slots.length
    rw [List.length_take, hslotsLength]
    omega
  case marked =>
    intro slot hslot
    change slot < slots.length at hslot
    have hbit := congrArg (·[slot]?) hbits
    simp only [Bitmap.bits, List.getElem?_map, List.getElem?_range (by omega : slot < count),
      Option.map_some, List.getElem?_eq_getElem hslot, Option.some.injEq] at hbit
    rw [tuple?, List.getElem?_eq_getElem hslot, Option.join_some]
    exact hbit.symm
  case stored =>
    intro slot t ht
    obtain ⟨hschema, hcomplete, hrecord⟩ := hstored slot t (tuple?_eq_some_iff.mp ht)
    rw [Nat.zero_add] at hrecord
    exact ⟨by rw [hschema, Schema.Agrees], hcomplete, hrecord⟩

theorem wellFormed_ofImage (file : TableFile) (n : PageNo) {image : Bytes}
    (h : image.length = file.pageSize) :
    ∃ page, ofImage ⟨file.id, n⟩ file.schema image = .ok page ∧ page.id = ⟨file.id, n⟩ ∧
      page.isDirty = false ∧ page.WellFormed file := by
  obtain ⟨page, hpage, hid, hschema, hsize, hclean, hshaped⟩ :=
    shaped_ofImage ⟨file.id, n⟩ file.schema image
  exact ⟨page, hpage, hid, hclean, hshaped.wellFormed (by rw [hid]) hschema (hsize.trans h)⟩

theorem Shaped.shape {page : Page} (h : page.Shaped) {t : Tuple} (hmem : some t ∈ page.slots) :
    t.schema.Agrees page.schema ∧ t.Complete := by
  obtain ⟨slot, hslot⟩ := List.mem_iff_getElem?.mp hmem
  obtain ⟨hagrees, hcomplete, _⟩ := h.stored slot t (tuple?_eq_some_iff.mpr hslot)
  exact ⟨hagrees, hcomplete⟩

theorem Shaped.length_slots {page : Page} (h : page.Shaped) {body : Bytes}
    (hbody : encodeSlots page.schema.size page.slots = .ok body) :
    page.header.bytes.length + body.length ≤ page.size := by
  obtain ⟨hlength, _⟩ := decodeSlots_encodeSlots (fun t ht => h.shape ht) hbody
  have hslots : page.slots.length = Layout.slotCount page.schema.size page.size := h.slots
  have hfits := Layout.headerSize_add_slots_le page.schema.size page.size
  rw [hlength, h.header, h.slots, hslots]
  exact hfits

/-- A page that was written has its size and is read back with its rows. -/
theorem Shaped.rows_ofImage {page : Page} (h : page.Shaped) {image : Bytes}
    (himage : page.toImage = .ok image) :
    image.length = page.size ∧
      ∀ id, ∃ stored, ofImage id page.schema image = .ok stored ∧ stored.rows = page.rows := by
  obtain ⟨body, hbody, rfl⟩ := map_eq_ok.mp himage
  obtain ⟨_, hback⟩ := decodeSlots_encodeSlots (fun t ht => h.shape ht) hbody
  have hfits := h.length_slots hbody
  have hsize : (page.header.bytes ++ body ++ List.replicate
      (page.size - (page.header.bytes ++ body).length) 0).length = page.size := by
    simp only [List.length_append, List.length_replicate]
    omega
  refine ⟨hsize, fun id => ?_⟩
  obtain ⟨read, hread, hrows⟩ := hback id 0
    (List.replicate (page.size - (page.header.bytes ++ body).length) 0)
  rw [← h.bits] at hread
  refine ⟨{ id, schema := page.schema, size := page.size, header := page.header, slots := read },
    ?_, hrows⟩
  simp only [ofImage, hsize, ← h.slots]
  rw [List.append_assoc, List.take_left' h.header, List.drop_left' h.header]
  simp only [hread]
  rfl

theorem WellFormed.rows_ofImage {file : TableFile} {page : Page} (h : page.WellFormed file)
    {image : Bytes} (himage : page.toImage = .ok image) :
    image.length = file.pageSize ∧
      ∀ n, ∃ stored, ofImage ⟨file.id, n⟩ file.schema image = .ok stored ∧ stored.rows = page.rows := by
  obtain ⟨hlength, hback⟩ := h.shaped.rows_ofImage himage
  rw [h.schema] at hback
  exact ⟨hlength.trans h.size, fun n => hback ⟨file.id, n⟩⟩

theorem rows_ofImage_congr {schema other : Schema} (hagrees : other.Agrees schema) {id id' : PageId}
    {image : Bytes} {page page' : Page} (h : ofImage id schema image = .ok page)
    (h' : ofImage id' other image = .ok page') : page'.rows = page.rows := by
  obtain ⟨slots, hslots, rfl⟩ := map_eq_ok.mp h
  obtain ⟨slots', hslots', rfl⟩ := map_eq_ok.mp h'
  rw [hagrees.size_eq] at hslots'
  exact fields_decodeSlots_congr hagrees hslots hslots'

theorem rows_ofImage_zeros (file : TableFile) (n : PageNo) {page : Page}
    (h : ofImage ⟨file.id, n⟩ file.schema (List.replicate file.pageSize 0) = .ok page) :
    page.rows = List.replicate file.slotCount none := by
  obtain ⟨stored, hstored, _, _, hformed⟩ := wellFormed_ofImage file n
    (List.length_replicate : (List.replicate file.pageSize (0 : UInt8)).length = file.pageSize)
  rw [h] at hstored
  cases hstored
  have hheader : page.header = Bitmap.zero (Layout.headerSize file.slotCount) := by
    obtain ⟨slots, hpage, _⟩ := ofImage_eq_ok h
    have hheader := congrArg Page.header hpage
    rw [List.length_replicate, List.take_replicate] at hheader
    have hformed := hformed.header
    rw [hheader] at hformed ⊢
    change (List.replicate _ (0 : UInt8)).length = _ at hformed
    rw [List.length_replicate] at hformed
    rw [Bitmap.zero, hformed]
  apply List.ext_getElem?
  intro slot
  rw [getElem?_rows, List.getElem?_replicate]
  have hslots : page.slots.length = file.slotCount := hformed.slots
  by_cases hslot : slot < file.slotCount
  · have hmarked := hformed.marked slot hslot
    have hlt : slot < page.slots.length := by omega
    rw [hheader, Bitmap.get_zero, tuple?, List.getElem?_eq_getElem hlt, Option.join_some] at hmarked
    have hnone : page.slots[slot] = none := by
      cases hfree : page.slots[slot] with
      | none => rfl
      | some t =>
        rw [hfree] at hmarked
        cases hmarked
    rw [if_pos hslot, List.getElem?_eq_getElem hlt, hnone]
    rfl
  · rw [if_neg hslot, List.getElem?_eq_none (by omega)]
    rfl

theorem toImage_of_valid {page : Page} (h : ∀ t, some t ∈ page.slots → t.Valid) :
    ∃ image, page.toImage = .ok image := by
  obtain ⟨body, hbody⟩ := encodeSlots_of_valid page.schema.size h
  exact ⟨_, by simp only [toImage, hbody]; rfl⟩

end Page
end RowStore
