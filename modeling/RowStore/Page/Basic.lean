import RowStore.Page.Bitmap
import RowStore.Page.Layout
import RowStore.Tuple.Basic

/-!
# Pages

A page is a row of slots for tuples of one schema, a bitmap of the slots in use, and the mark of the
transaction that changed it last. Inserting takes the first free slot; deleting frees the slot named
by a tuple's record. Edits are state transformers: an edit that fails leaves what the steps before
it have done.
-/
namespace RowStore

structure Page where
  id : PageId
  schema : Schema
  size : Nat
  header : Bitmap
  slots : List (Option Tuple)
  dirtiedBy : Option TransactionId := none
  deriving DecidableEq

/-- A change of one page, with an answer or the error at which it stops. -/
abbrev PageEdit (α : Type) := EStateM StoreError Page α

namespace Page

def empty (id : PageId) (schema : Schema) (size : Nat) : Page :=
  let slots := Layout.slotCount schema.size size
  { id, schema, size
    header := Bitmap.zero (Layout.headerSize slots)
    slots := List.replicate slots none }

def numSlots (page : Page) : Nat := page.slots.length

def numEmptySlots (page : Page) : Nat := page.slots.countP Option.isNone

/-- The bitmap has the slot in use. -/
def isSlotUsed (page : Page) (slot : Nat) : Bool := slot < page.slots.length && page.header.get slot

def tuple? (page : Page) (slot : Nat) : Option Tuple := page.slots[slot]?.join

/-- The stored tuples in slot order. -/
def tuples (page : Page) : List Tuple := page.slots.filterMap fun slot => slot

theorem mem_tuples {page : Page} {t : Tuple} : t ∈ page.tuples ↔ some t ∈ page.slots := by
  simp [tuples, List.mem_filterMap]

/-- The first slot that holds no tuple. -/
def freeSlot? (page : Page) : Option Nat := page.slots.findIdx? Option.isNone

/-- The record of a slot of the page. -/
def record (page : Page) (slot : Nat) : RecordId := ⟨page.id, UInt16.ofNat slot⟩

/-- On a page of few enough slots each slot has a number of its own. -/
theorem slot_record (page : Page) {slot : Nat} (hslot : slot < page.numSlots)
    (hsmall : page.numSlots ≤ Layout.maxSlots) : (page.record slot).slot.toNat = slot :=
  UInt16.toNat_ofNat_of_lt' (Nat.lt_of_lt_of_le hslot hsmall)

/-- Puts the tuple into the slot, where it carries the slot's record. -/
def fill (page : Page) (slot : Nat) (t : Tuple) : Page :=
  { page with
    slots := page.slots.set slot (some { t with record := some (page.record slot) })
    header := page.header.set slot true }

def free (page : Page) (slot : Nat) : Page :=
  { page with slots := page.slots.set slot none, header := page.header.set slot false }

def insert (t : Tuple) : PageEdit RecordId := fun page =>
  if t.schema.Agrees page.schema then
    match page.freeSlot? with
    | some slot => .ok (page.record slot) (page.fill slot t)
    | none => .error (.pageFull page.id) page
  else .error (.schemaMismatch page.schema.text t.schema.text) page

/-- Frees the slot named by the tuple's record; the tuple's fields do not matter. -/
def delete (t : Tuple) : PageEdit Unit := fun page =>
  match t.record with
  | none => .error .missingRecordId page
  | some record =>
    if record.page ≠ page.id then .error (.recordNotOnPage record page.id) page
    else if page.isSlotUsed record.slot.toNat then .ok () (page.free record.slot.toNat)
    else .error (.emptySlot page.id record.slot) page

theorem tuple?_fill (page : Page) {slot : Nat} (h : slot < page.numSlots) (t : Tuple)
    (other : Nat) :
    (page.fill slot t).tuple? other =
      if slot = other then some { t with record := some (page.record slot) } else page.tuple? other := by
  unfold numSlots at h
  simp only [tuple?, fill, List.getElem?_set, h, if_true]
  split <;> rfl

theorem tuple?_free (page : Page) (slot other : Nat) :
    (page.free slot).tuple? other = if slot = other then none else page.tuple? other := by
  simp only [tuple?, free, List.getElem?_set]
  split
  · split <;> rfl
  · rfl

theorem freeSlot?_eq_none_iff (page : Page) :
    page.freeSlot? = none ↔ ∀ slot < page.numSlots, page.tuple? slot ≠ none := by
  rw [freeSlot?, List.findIdx?_eq_none_iff, numSlots]
  constructor
  · intro h slot hslot hnone
    rw [tuple?, List.getElem?_eq_getElem hslot, Option.join_some] at hnone
    have hsome := h _ (List.getElem_mem hslot)
    rw [hnone] at hsome
    cases hsome
  · intro h stored hstored
    obtain ⟨slot, hslot, rfl⟩ := List.mem_iff_getElem.mp hstored
    have hsome := h slot hslot
    rw [tuple?, List.getElem?_eq_getElem hslot, Option.join_some] at hsome
    exact Option.isNone_eq_false_iff.mpr (Option.isSome_iff_ne_none.mpr hsome)

/-- The first free slot is a slot of the page that holds no tuple, and all slots before it hold one. -/
theorem freeSlot?_eq_some_iff (page : Page) (slot : Nat) :
    page.freeSlot? = some slot ↔
      slot < page.numSlots ∧ page.tuple? slot = none ∧ ∀ before < slot, page.tuple? before ≠ none := by
  rw [freeSlot?, List.findIdx?_eq_some_iff_getElem]
  constructor
  · rintro ⟨h, hfree, hbefore⟩
    refine ⟨h, ?_, fun before hlt => ?_⟩
    · simpa [tuple?, List.getElem?_eq_getElem h] using hfree
    · have := hbefore before hlt
      simpa [tuple?, List.getElem?_eq_getElem (Nat.lt_trans hlt h), Option.isSome_iff_ne_none] using this
  · rintro ⟨h, hfree, hbefore⟩
    unfold numSlots at h
    refine ⟨h, ?_, fun before hlt => ?_⟩
    · simpa [tuple?, List.getElem?_eq_getElem h] using hfree
    · have := hbefore before hlt
      simpa [tuple?, List.getElem?_eq_getElem (Nat.lt_trans hlt h), Option.isSome_iff_ne_none] using this

def markDirty (page : Page) (txn : TransactionId) : Page := { page with dirtiedBy := some txn }

def markClean (page : Page) : Page := { page with dirtiedBy := none }

def isDirty (page : Page) : Bool := page.dirtiedBy.isSome

end Page
end RowStore
