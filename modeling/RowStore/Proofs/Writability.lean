import Mathlib.Control.Monad.Basic
import RowStore.Proofs.Evictions
import RowStore.Proofs.PageImages
import RowStore.Proofs.RowEncodings

/-!
# Pages that cannot be written

Reading replaces bytes that are no text by marks of three bytes each, so a text may be longer than
the column it was read from. The main statement says that a page that was read can be written exactly
if all its texts fit as they are read; then it has the size of its image and is read again unchanged.
-/
namespace RowStore
open Database

namespace Cell

/-- The text fits its column as it is read. -/
def Fits (cell : Cell) : Prop :=
  ∀ width, cell.type = .char width → (Text.decode cell.textBytes).utf8ByteSize ≤ width.toNat

/-- The refusal of a value that does not fit its column. -/
def mismatch (index : Nat) (cell : Cell) : StoreError :=
  .typeMismatch index cell.type.text cell.value.type.text

theorem fits_value_iff (cell : Cell) : cell.value.fits cell.type = true ↔ cell.Fits := by
  unfold value Fits
  cases cell.type with
  | integer => simp [Field.fits]
  | char width => simp [Field.fits]

theorem valid_iff_fits {t : Tuple} {cells : List Cell} (hfields : t.fields = cells.map value)
    (htypes : t.schema.types = cells.map type) : t.Valid ↔ ∀ cell ∈ cells, cell.Fits := by
  simp only [Tuple.Valid, hfields, htypes, List.length_map, List.zip_map', List.forall_mem_map,
    fits_value_iff, true_and]

theorem of_firstMisfit {cells : List Cell} {i : Nat} {field : Field} {type : ColumnType}
    (h : Tuple.FirstMisfit (cells.map value) (cells.map Cell.type) i field type) :
    ∃ cell, cells[i]? = some cell ∧ ¬ cell.Fits ∧ (∀ before ∈ cells.take i, before.Fits) ∧
      cell.value = field ∧ cell.type = type := by
  induction cells generalizing i with
  | nil => cases h
  | cons cell cells ih =>
    cases h with
    | here misfit =>
      refine ⟨cell, rfl, ?_, fun before hbefore => absurd hbefore List.not_mem_nil, rfl, rfl⟩
      rw [← fits_value_iff, misfit]
      exact Bool.false_ne_true
    | later fits rest =>
      obtain ⟨found, hfound, hmisfit, hbefore, heq⟩ := ih rest
      exact ⟨found, hfound, hmisfit, List.forall_mem_cons.mpr ⟨(fits_value_iff _).mp fits, hbefore⟩, heq⟩

theorem refused_of_encodeFields {cells : List Cell} {index : Nat} {e : StoreError}
    (h : Tuple.encodeFields index (cells.map value) (cells.map type) = .error e) :
    ∃ i cell, cells[i]? = some cell ∧ ¬ cell.Fits ∧ (∀ before ∈ cells.take i, before.Fits) ∧
      e = cell.mismatch (index + i) := by
  rcases Tuple.fit_or_firstMisfit (cells.map value) (cells.map type) with
    hfits | ⟨i, field, type, hfirst⟩
  · obtain ⟨data, hdata, -⟩ := Tuple.encodeFields_of_fits index
      (by rw [List.length_map, List.length_map]) hfits
    rw [hdata] at h
    cases h
  · obtain ⟨cell, hcell, hmisfit, hbefore, rfl, rfl⟩ := of_firstMisfit hfirst
    rw [hfirst.encodeFields_eq] at h
    exact ⟨i, cell, hcell, hmisfit, hbefore, (Except.error.inj h).symm⟩

end Cell

namespace Page

theorem refused_of_encodeSlots {width : Nat} {slots : List (Option Tuple)} {e : StoreError}
    (h : encodeSlots width slots = .error e) : ∃ t, some t ∈ slots ∧ t.encode = .error e := by
  induction slots with
  | nil => cases h
  | cons slot slots ih =>
    rw [encodeSlots] at h
    split at h
    · next hslot =>
      cases h
      cases slot with
      | none => cases hslot
      | some t => exact ⟨t, List.mem_cons_self, hslot⟩
    · cases hrest : encodeSlots width slots with
      | ok rest =>
        rw [hrest] at h
        cases h
      | error cause =>
        rw [hrest] at h
        cases h
        obtain ⟨t, hmem, hencode⟩ := ih hrest
        exact ⟨t, List.mem_cons_of_mem _ hmem, hencode⟩

theorem storedSlot_eq_some {id : PageId} {schema : Schema} {image : Bytes} {slot : Nat} {t : Tuple} :
    storedSlot id schema image slot = some t ↔ Layout.inUse schema.size image slot = true ∧
      t = { schema, fields := (schema.cells image slot).map Cell.value
            record := some ⟨id, UInt16.ofNat slot⟩ } := by
  rw [storedSlot, Option.ite_none_right_eq_some, Option.some.injEq, eq_comm (b := t)]

theorem mem_tuples_stored {id : PageId} {schema : Schema} {image : Bytes} {t : Tuple} :
    t ∈ (stored id schema image).tuples ↔ ∃ slot, storedSlot id schema image slot = some t := by
  simp only [mem_tuples_iff, tuple?_stored]

theorem valid_stored_iff (id : PageId) (schema : Schema) (image : Bytes) :
    (∀ t ∈ (stored id schema image).tuples, t.Valid) ↔ schema.EachCell image Cell.Fits := by
  have hvalid (slot : Nat) : Tuple.Valid
      { schema, fields := (schema.cells image slot).map Cell.value
        record := some ⟨id, UInt16.ofNat slot⟩ } ↔ ∀ cell ∈ schema.cells image slot, cell.Fits :=
    Cell.valid_iff_fits rfl (schema.map_type_cells image slot).symm
  constructor
  · intro h slot hused
    apply (hvalid slot).mp
    exact h _ (mem_tuples_stored.mpr ⟨slot, storedSlot_eq_some.mpr ⟨hused, rfl⟩⟩)
  · intro h t ht
    obtain ⟨slot, hslot⟩ := mem_tuples_stored.mp ht
    obtain ⟨hused, rfl⟩ := storedSlot_eq_some.mp hslot
    exact (hvalid slot).mpr (h slot hused)

theorem writable_stored_iff (id : PageId) (schema : Schema) (image : Bytes) :
    (∃ written, (stored id schema image).toImage = .ok written) ↔ schema.EachCell image Cell.Fits :=
  (shaped_stored id schema image).toImage_iff.trans (valid_stored_iff id schema image)

theorem slots_stored (id : PageId) (schema : Schema) (image : Bytes) :
    (stored id schema image).slots = (stored id schema image).rows.mapIdx fun slot row =>
      row.map fun fields => { schema, fields, record := some ⟨id, UInt16.ofNat slot⟩ } := by
  apply List.ext_getElem?
  intro slot
  rw [List.getElem?_mapIdx, getElem?_rows, stored, List.getElem?_map]
  by_cases hslot : slot < Layout.slotCount schema.size image.length
  · rw [List.getElem?_range hslot, Option.map_some, Option.map_some, Option.map_some, storedSlot]
    split <;> rfl
  · rw [List.getElem?_eq_none (by rw [List.length_range]; omega)]
    rfl

theorem stored_of_toImage {id : PageId} {schema : Schema} {image written : Bytes}
    (h : (stored id schema image).toImage = .ok written) :
    written.length = image.length ∧ stored id schema written = stored id schema image := by
  have hshaped := shaped_stored id schema image
  obtain ⟨hlength, hback⟩ := hshaped.rows_ofImage h
  change written.length = image.length at hlength
  obtain ⟨again, hagain, hrows⟩ := hback id
  change ofImage id schema written = _ at hagain
  rw [ofImage_eq] at hagain
  cases hagain
  have hslots : (stored id schema written).slots = (stored id schema image).slots := by
    rw [slots_stored, slots_stored, hrows]
  have hheader : (stored id schema written).header = (stored id schema image).header := by
    obtain ⟨body, _, rfl⟩ := map_eq_ok.mp h
    have hbits : (stored id schema image).header.bytes.length = Layout.start schema.size image := by
      rw [hshaped.header, hshaped.slots]
      rfl
    refine congrArg Bitmap.mk ?_
    rw [Layout.start, hlength, List.append_assoc]
    exact List.take_left' hbits
  refine ⟨hlength, ?_⟩
  change Page.mk id schema written.length (stored id schema written).header
    (stored id schema written).slots none = _
  rw [hlength, hheader, hslots]
  rfl

theorem refused_of_toImage {id : PageId} {schema : Schema} {image : Bytes} {e : StoreError}
    (h : (stored id schema image).toImage = .error e) :
    ∃ (slot index : Nat) (cell : Cell), Layout.inUse schema.size image slot = true ∧
      (schema.cells image slot)[index]? = some cell ∧ ¬ cell.Fits ∧
        (∀ before ∈ (schema.cells image slot).take index, before.Fits) ∧ e = cell.mismatch index := by
  have hslots : encodeSlots schema.size (stored id schema image).slots = .error e := by
    cases hslots : encodeSlots schema.size (stored id schema image).slots with
    | ok body =>
      rw [toImage, show (stored id schema image).schema = schema from rfl, hslots] at h
      cases h
    | error cause =>
      rw [toImage, show (stored id schema image).schema = schema from rfl, hslots] at h
      cases h
      rfl
  obtain ⟨t, hmem, hencode⟩ := refused_of_encodeSlots hslots
  obtain ⟨slot, hslot⟩ := mem_tuples_stored.mp (mem_tuples.mpr hmem)
  obtain ⟨hused, rfl⟩ := storedSlot_eq_some.mp hslot
  rw [Tuple.encode, ← schema.map_type_cells image slot] at hencode
  obtain ⟨index, cell, hcell, hmisfit, hbefore, rfl⟩ := Cell.refused_of_encodeFields hencode
  exact ⟨slot, index, cell, hused, hcell, hmisfit, hbefore, by rw [Nat.zero_add]⟩

/-- A page that was read can be written, as it is and after any changes, exactly if each text that it
was read from fits its column as it is read. It then has the size of its image and is read again
unchanged; otherwise a text that does not fit is refused. -/
theorem writable_ofImage_iff (id : PageId) (schema : Schema) (image : Bytes) :
    ∃ page, ofImage id schema image = .ok page ∧
      ((∀ t ∈ page.tuples, t.Valid) ↔ schema.EachCell image Cell.Fits) ∧
      ((∃ written, page.toImage = .ok written) ↔ schema.EachCell image Cell.Fits) ∧
      ((∀ calls : List PageCall, (∀ call ∈ calls, call.Plain) →
        ∃ written, (run calls page).toImage = .ok written) ↔ schema.EachCell image Cell.Fits) ∧
      (∀ written, page.toImage = .ok written →
        written.length = image.length ∧ ofImage id schema written = .ok page) ∧
      ∀ e, page.toImage = .error e →
        ∃ (slot index : Nat) (cell : Cell), Layout.inUse schema.size image slot = true ∧
          (schema.cells image slot)[index]? = some cell ∧ ¬ cell.Fits ∧
            (∀ before ∈ (schema.cells image slot).take index, before.Fits) ∧
              e = cell.mismatch index := by
  have hshaped := shaped_stored id schema image
  have hvalid := valid_stored_iff id schema image
  have hwritable := writable_stored_iff id schema image
  refine ⟨stored id schema image, ofImage_eq id schema image, hvalid, hwritable, ⟨?_, ?_⟩, ?_,
    fun e => refused_of_toImage⟩
  · intro h
    exact hwritable.mp (h [] fun call hcall => by cases hcall)
  · intro h calls hcalls
    have hstorable : (stored id schema image).Storable id schema image.length :=
      ⟨rfl, rfl, rfl, hshaped, fun slot t ht => hvalid.mpr h t (mem_tuples_iff.mpr ⟨slot, ht⟩)⟩
    have hrun := hstorable.run hcalls
    refine hrun.shaped.toImage_iff.mpr fun t ht => ?_
    obtain ⟨slot, hslot⟩ := mem_tuples_iff.mp ht
    exact hrun.valid slot t hslot
  · intro written hwritten
    obtain ⟨hlength, hsame⟩ := stored_of_toImage hwritten
    exact ⟨hlength, by rw [ofImage_eq, hsame]⟩

/-- A byte that is no text is read as a mark of three bytes, which its column cannot take back: once
the other row of the page is deleted, the page can be neither flushed nor evicted. -/
theorem unwritable_after_delete :
    let schema : Schema := ⟨[{ type := .char 1, name := some "a" }], List.cons_ne_nil _ _⟩
    let image : Bytes := [3, 0, 0, 0, 1, 0xFF, 0, 0, 0, 1, 0x41]
    let id : PageId := ⟨.file "t.dat", 0⟩
    let start := onVolume { pageSize := 11, poolPages := 1 }
      (({} : Volume).store "t.dat" (Contents.ofBytes image))
    let db := play [.create "t.dat" "t" schema "a",
      .call (.delete ⟨1⟩ ⟨schema, [.str "A"], some ⟨id, 1⟩⟩)] start
    (∃ page t, ofImage id schema image = .ok page ∧ page.tuple? 0 = some t ∧ ¬ t.Valid ∧
      ¬ ∃ written, page.toImage = .ok written) ∧
      ((db.pool.page? id).map Page.isDirty = some true) ∧
      (∃ db', flushPage id db = .error (.error (.typeMismatch 0 "CHAR(1)" "CHAR(3)")) db') ∧
      ∃ db', evict db = .error (.error (.typeMismatch 0 "CHAR(1)" "CHAR(3)")) db' := by
  intro schema image id start db
  refine ⟨?_, by decide +kernel, exists_error_of_outcome (by decide +kernel),
    exists_error_of_outcome (by decide +kernel)⟩
  have hmisfit : ¬ Tuple.Valid ⟨schema, [.str "\uFFFD"], some ⟨id, 0⟩⟩ := by decide +kernel
  have htuple : (stored id schema image).tuple? 0 = some ⟨schema, [.str "\uFFFD"], some ⟨id, 0⟩⟩ := by
    decide +kernel
  refine ⟨stored id schema image, _, ofImage_eq id schema image, htuple, hmisfit, fun hwritable => ?_⟩
  have hvalid := (shaped_stored id schema image).toImage_iff.mp hwritable
  exact hmisfit (hvalid _ (mem_tuples_iff.mpr ⟨0, htuple⟩))

end Page
end RowStore
