import RowStore.Database.Table
import RowStore.Proofs.PageRows

/-!
# Edits of pages

An insert puts its row into the first free slot and a delete frees the slot that its record names.
Both keep the shape of the page and all other rows; an edit that fails leaves the page.
-/
namespace RowStore

theorem join_ne_none_of_full {rows : List (Option (List Field))}
    (h : rows.findIdx? Option.isNone = none) {slot : Nat} (hslot : slot < rows.length) :
    rows[slot]?.join ≠ none := by
  have hrow := List.findIdx?_eq_none_iff.mp h rows[slot] (List.getElem_mem hslot)
  rw [List.getElem?_eq_getElem hslot, Option.join_some]
  intro hnone
  rw [hnone] at hrow
  cases hrow

theorem join_eq_none_of_first {rows : List (Option (List Field))} {slot : Nat}
    (h : rows.findIdx? Option.isNone = some slot) :
    slot < rows.length ∧ rows[slot]?.join = none ∧ ∀ before < slot, rows[before]?.join ≠ none := by
  obtain ⟨hslot, hfree, hbefore⟩ := List.findIdx?_eq_some_iff_getElem.mp h
  refine ⟨hslot, ?_, ?_⟩
  · rw [List.getElem?_eq_getElem hslot, Option.join_some]
    exact Option.isNone_iff_eq_none.mp hfree
  · intro before hlt hnone
    rw [List.getElem?_eq_getElem (Nat.lt_trans hlt hslot), Option.join_some] at hnone
    exact hbefore before hlt (Option.isNone_iff_eq_none.mpr hnone)

namespace Page
open Database

theorem forall_tuple?_fill {page : Page} {P : Nat → Tuple → Prop} {slot : Nat}
    (h : ∀ slot t, page.tuple? slot = some t → P slot t) (hslot : slot < page.numSlots) {t : Tuple}
    (hnew : P slot { t with record := some (page.record slot) }) :
    ∀ other stored, (page.fill slot t).tuple? other = some stored → P other stored := by
  intro other stored hstored
  rw [tuple?_fill page hslot] at hstored
  split at hstored
  · next heq =>
    cases hstored
    rwa [← heq]
  · exact h other stored hstored

theorem forall_tuple?_free {page : Page} {P : Nat → Tuple → Prop}
    (h : ∀ slot t, page.tuple? slot = some t → P slot t) (slot : Nat) :
    ∀ other stored, (page.free slot).tuple? other = some stored → P other stored := by
  intro other stored hstored
  rw [tuple?_free] at hstored
  split at hstored
  · cases hstored
  · exact h other stored hstored

@[simp] theorem numSlots_fill (page : Page) (slot : Nat) (t : Tuple) :
    (page.fill slot t).numSlots = page.numSlots := List.length_set ..

@[simp] theorem numSlots_free (page : Page) (slot : Nat) : (page.free slot).numSlots = page.numSlots :=
  List.length_set ..

/-- The bitmap has a bit for each slot, which is set where the slot holds a tuple. -/
structure Marked (page : Page) : Prop where
  header : page.header.bytes.length = Layout.headerSize page.numSlots
  marked : ∀ slot < page.numSlots, page.header.get slot = (page.tuple? slot).isSome

/-- A slot is in use by the bitmap exactly if it holds a tuple. -/
theorem Marked.isSlotUsed_eq {page : Page} (h : page.Marked) (slot : Nat) :
    page.isSlotUsed slot = (page.tuple? slot).isSome := by
  by_cases hslot : slot < page.numSlots
  · rw [isSlotUsed, decide_eq_true (show slot < page.slots.length from hslot), Bool.true_and,
      h.marked slot hslot]
  · rw [isSlotUsed, decide_eq_false (show ¬ slot < page.slots.length from hslot), tuple?,
      List.getElem?_eq_none (Nat.le_of_not_lt hslot)]
    rfl

theorem Shaped.bitmap {page : Page} (h : page.Shaped) : page.Marked := ⟨h.header, h.marked⟩

theorem Marked.slot_lt_bits {page : Page} (h : page.Marked) {slot : Nat} (hslot : slot < page.numSlots) :
    slot < page.header.bytes.length * 8 := by
  rw [h.header, Layout.headerSize]
  omega

theorem Marked.fill {page : Page} (h : page.Marked) {slot : Nat} (hslot : slot < page.numSlots)
    (t : Tuple) : (page.fill slot t).Marked := by
  constructor
  case header =>
    rw [numSlots_fill]
    exact (Bitmap.length_set ..).trans h.header
  case marked =>
    rw [numSlots_fill]
    intro other hother
    rw [tuple?_fill page hslot]
    change (page.header.set slot true).get other = _
    rw [Bitmap.get_set _ _ _ _ (h.slot_lt_bits hslot), h.marked other hother]
    split <;> rfl

theorem Marked.free {page : Page} (h : page.Marked) {slot : Nat} (hslot : slot < page.numSlots) :
    (page.free slot).Marked := by
  constructor
  case header =>
    rw [numSlots_free]
    exact (Bitmap.length_set ..).trans h.header
  case marked =>
    rw [numSlots_free]
    intro other hother
    rw [tuple?_free]
    change (page.header.set slot false).get other = _
    rw [Bitmap.get_set _ _ _ _ (h.slot_lt_bits hslot), h.marked other hother]
    split <;> rfl

theorem Shaped.fill {page : Page} (h : page.Shaped) {slot : Nat} (hslot : slot < page.numSlots)
    {t : Tuple} (hagrees : t.schema.Agrees page.schema) (hcomplete : t.Complete) :
    (page.fill slot t).Shaped := by
  have hmarked := h.bitmap.fill hslot t
  constructor
  case slots => exact (numSlots_fill ..).trans h.slots
  case header => exact hmarked.header
  case marked => exact hmarked.marked
  case stored => exact forall_tuple?_fill h.stored hslot ⟨hagrees, hcomplete, rfl⟩

theorem Shaped.free {page : Page} (h : page.Shaped) {slot : Nat} (hslot : slot < page.numSlots) :
    (page.free slot).Shaped := by
  have hmarked := h.bitmap.free hslot
  constructor
  case slots => exact (numSlots_free ..).trans h.slots
  case header => exact hmarked.header
  case marked => exact hmarked.marked
  case stored => exact forall_tuple?_free h.stored slot

theorem WellFormed.fill {file : TableFile} {page : Page} (h : page.WellFormed file) {slot : Nat}
    (hslot : slot < file.slotCount) {t : Tuple} (hagrees : t.schema.Agrees file.schema)
    (hcomplete : t.Complete) : (page.fill slot t).WellFormed file := by
  rw [← h.slots] at hslot
  rw [← h.schema] at hagrees
  exact (h.shaped.fill hslot hagrees hcomplete).wellFormed h.home h.schema h.size

theorem WellFormed.free {file : TableFile} {page : Page} (h : page.WellFormed file) {slot : Nat}
    (hslot : slot < file.slotCount) : (page.free slot).WellFormed file := by
  rw [← h.slots] at hslot
  exact (h.shaped.free hslot).wellFormed h.home h.schema h.size

theorem WellFormed.markDirty {file : TableFile} {page : Page} (h : page.WellFormed file)
    (txn : TransactionId) : (page.markDirty txn).WellFormed file :=
  ⟨h.home, h.schema, h.size, h.slots, h.header, h.marked, h.stored⟩

theorem WellFormed.markClean {file : TableFile} {page : Page} (h : page.WellFormed file) :
    page.markClean.WellFormed file :=
  ⟨h.home, h.schema, h.size, h.slots, h.header, h.marked, h.stored⟩

@[simp] theorem rows_markDirty (page : Page) (txn : TransactionId) :
    (page.markDirty txn).rows = page.rows := rfl

@[simp] theorem rows_markClean (page : Page) : page.markClean.rows = page.rows := rfl

theorem rows_fill (page : Page) (slot : Nat) (t : Tuple) :
    (page.fill slot t).rows = page.rows.set slot (some t.fields) :=
  List.map_set

theorem rows_free (page : Page) (slot : Nat) : (page.free slot).rows = page.rows.set slot none :=
  List.map_set

theorem length_rows (page : Page) : page.rows.length = page.numSlots := List.length_map _

/-- The first free slot is the first one without a row. -/
theorem freeSlot?_eq (page : Page) : page.freeSlot? = page.rows.findIdx? Option.isNone := by
  rw [freeSlot?, rows, List.findIdx?_map]
  congr 1
  funext slot
  cases slot <;> rfl

theorem numEmptySlots_pos_iff (page : Page) :
    0 < page.numEmptySlots ↔ page.rows.findIdx? Option.isNone ≠ none := by
  rw [← freeSlot?_eq, freeSlot?, numEmptySlots, List.countP_pos_iff, ne_eq, List.findIdx?_eq_none_iff]
  simp

/-- A slot is in use exactly if it has a row. -/
theorem Shaped.isSlotUsed_iff {page : Page} (h : page.Shaped) (slot : Nat) :
    page.isSlotUsed slot = true ↔ ∃ fields, page.rows[slot]? = some (some fields) := by
  rw [h.bitmap.isSlotUsed_eq, Option.isSome_iff_exists, getElem?_rows]
  constructor
  · rintro ⟨t, ht⟩
    exact ⟨t.fields, by rw [tuple?_eq_some_iff.mp ht]; rfl⟩
  · rintro ⟨fields, hfields⟩
    obtain ⟨stored, hstored, hmap⟩ := Option.map_eq_some_iff.mp hfields
    obtain ⟨t, rfl, _⟩ := Option.map_eq_some_iff.mp hmap
    exact ⟨t, tuple?_eq_some_iff.mpr hstored⟩

theorem insertEdit_eq_ok {t : Tuple} {page page' : Page} :
    insertEdit t page = .ok () page' ↔
      t.schema.Agrees page.schema ∧ ∃ slot, page.freeSlot? = some slot ∧ page' = page.fill slot t := by
  change EStateM.bind (Page.insert t) (fun _ => pure ()) page = _ ↔ _
  rw [EStateM.bind, Page.insert]
  by_cases hagrees : t.schema.Agrees page.schema
  · rw [if_pos hagrees]
    cases page.freeSlot? with
    | none => simp [hagrees]
    | some slot =>
      constructor
      · intro h
        cases h
        exact ⟨hagrees, slot, rfl, rfl⟩
      · rintro ⟨_, slot, hslot, rfl⟩
        cases hslot
        rfl
  · simp [hagrees]

theorem insertEdit_eq_error {t : Tuple} {page page' : Page} {e : StoreError}
    (h : insertEdit t page = .error e page') : page' = page := by
  change EStateM.bind (Page.insert t) (fun _ => pure ()) page = _ at h
  rw [EStateM.bind, Page.insert] at h
  split at h
  · cases h
  · next hinsert =>
    split at hinsert
    · split at hinsert <;> cases hinsert
      cases h
      rfl
    · cases hinsert
      cases h
      rfl

theorem delete_eq_ok {t : Tuple} {page page' : Page} :
    Page.delete t page = .ok () page' ↔
      ∃ record, t.record = some record ∧ record.page = page.id ∧
        page.isSlotUsed record.slot.toNat = true ∧ page' = page.free record.slot.toNat := by
  rw [Page.delete]
  cases t.record with
  | none => simp
  | some record =>
    by_cases hpage : record.page = page.id
    · by_cases hused : page.isSlotUsed record.slot.toNat = true
      · simp only [ne_eq, hpage, not_true, if_false, hused, if_true]
        constructor
        · intro h
          cases h
          exact ⟨record, rfl, hpage, hused, rfl⟩
        · rintro ⟨other, hother, _, _, rfl⟩
          cases hother
          rfl
      · simp [hpage, hused]
    · simp [hpage]

theorem delete_eq_error {t : Tuple} {page page' : Page} {e : StoreError}
    (h : Page.delete t page = .error e page') : page' = page := by
  rw [Page.delete] at h
  split at h
  · cases h
    rfl
  · split at h
    · cases h
      rfl
    · split at h <;> cases h
      rfl

end Page
end RowStore
