import RowStore.Proofs.PageEdits

/-!
# Pages and their images

A page in memory is changed by inserts, deletes and marks, one after the other, whether they succeed
or fail. Every page that such a run makes of an empty one can be written, and what is read back is a
clean page with the same slots, rows and records.
-/
namespace RowStore
open Database

/-- A change of a page in memory. -/
inductive PageCall where
  | insert (t : Tuple)
  | delete (t : Tuple)
  | markDirty (txn : TransactionId)
  | markClean

namespace PageCall

def perform : PageCall → PageEdit Unit
  | .insert t => insertEdit t
  | .delete t => Page.delete t
  | .markDirty txn => fun page => .ok () (page.markDirty txn)
  | .markClean => fun page => .ok () page.markClean

/-- The page that the call leaves. -/
def leaves (call : PageCall) (page : Page) : Page :=
  match call.perform page with
  | .ok _ page => page
  | .error _ page => page

/-- The call inserts valid tuples only. -/
def Plain : PageCall → Prop
  | .insert t => t.Valid
  | .delete _ | .markDirty _ | .markClean => True

theorem leaves_cases (call : PageCall) (page : Page) :
    call.leaves page = page ∨
      (∃ t slot, call = .insert t ∧ t.schema.Agrees page.schema ∧ page.freeSlot? = some slot ∧
        call.leaves page = page.fill slot t) ∨
      (∃ slot, page.isSlotUsed slot = true ∧ call.leaves page = page.free slot) ∨
      ∃ mark, call.leaves page = { page with dirtiedBy := mark } := by
  cases call with
  | insert t =>
    cases hedit : insertEdit t page with
    | ok _ left =>
      obtain ⟨hagrees, slot, hslot, rfl⟩ := Page.insertEdit_eq_ok.mp hedit
      refine Or.inr (Or.inl ⟨t, slot, rfl, hagrees, hslot, ?_⟩)
      simp only [leaves, perform, hedit]
    | error e left =>
      left
      simp only [leaves, perform, hedit]
      exact Page.insertEdit_eq_error hedit
  | delete t =>
    cases hedit : Page.delete t page with
    | ok _ left =>
      obtain ⟨record, _, _, hused, rfl⟩ := Page.delete_eq_ok.mp hedit
      refine Or.inr (Or.inr (Or.inl ⟨record.slot.toNat, hused, ?_⟩))
      simp only [leaves, perform, hedit]
    | error e left =>
      left
      simp only [leaves, perform, hedit]
      exact Page.delete_eq_error hedit
  | markDirty txn => exact Or.inr (Or.inr (Or.inr ⟨some txn, rfl⟩))
  | markClean => exact Or.inr (Or.inr (Or.inr ⟨none, rfl⟩))

end PageCall

namespace Page

/-- The page after the calls. -/
def run : List PageCall → Page → Page
  | [], page => page
  | call :: calls, page => run calls (call.leaves page)

/-- The page of that number, schema and size has its shape, and all its tuples are valid. -/
structure Storable (id : PageId) (schema : Schema) (size : Nat) (page : Page) : Prop where
  id : page.id = id
  schema : page.schema = schema
  size : page.size = size
  shaped : page.Shaped
  valid : ∀ slot t, page.tuple? slot = some t → t.Valid

theorem storable_empty (id : PageId) (schema : Schema) (size : Nat) :
    (empty id schema size).Storable id schema size := by
  have hnone (slot : Nat) : (empty id schema size).tuple? slot = none := by
    rw [tuple?, empty, List.getElem?_replicate]
    split <;> rfl
  have hslots : (empty id schema size).numSlots = Layout.slotCount schema.size size :=
    List.length_replicate
  constructor
  case id => rfl
  case schema => rfl
  case size => rfl
  case shaped =>
    constructor
    case slots => exact hslots
    case header =>
      rw [hslots]
      exact List.length_replicate
    case marked =>
      intro slot _
      rw [hnone]
      exact Bitmap.get_zero _ _
    case stored =>
      intro slot t ht
      rw [hnone] at ht
      cases ht
  case valid =>
    intro slot t ht
    rw [hnone] at ht
    cases ht

theorem Storable.leaves {id : PageId} {schema : Schema} {size : Nat} {page : Page}
    (h : page.Storable id schema size) {call : PageCall} (hcall : call.Plain) :
    (call.leaves page).Storable id schema size := by
  rcases call.leaves_cases page with hleft | ⟨t, slot, rfl, hagrees, hfree, hleft⟩ |
    ⟨slot, hused, hleft⟩ | ⟨mark, hleft⟩ <;> rw [hleft]
  · exact h
  · have hslot := ((page.freeSlot?_eq_some_iff slot).mp hfree).1
    exact ⟨h.id, h.schema, h.size, h.shaped.fill hslot hagrees hcall.complete,
      forall_tuple?_fill h.valid hslot hcall⟩
  · have hslot : slot < page.numSlots := by
      rw [isSlotUsed, Bool.and_eq_true, decide_eq_true_eq] at hused
      exact hused.1
    exact ⟨h.id, h.schema, h.size, h.shaped.free hslot, forall_tuple?_free h.valid slot⟩
  · exact ⟨h.id, h.schema, h.size,
      ⟨h.shaped.slots, h.shaped.header, h.shaped.marked, h.shaped.stored⟩, h.valid⟩

theorem Storable.run {id : PageId} {schema : Schema} {size : Nat} {page : Page}
    (h : page.Storable id schema size) {calls : List PageCall} (hcalls : ∀ call ∈ calls, call.Plain) :
    (run calls page).Storable id schema size := by
  induction calls generalizing page with
  | nil => exact h
  | cons call calls ih =>
    apply ih _ fun other hmem => hcalls other (List.mem_cons_of_mem _ hmem)
    exact h.leaves (hcalls call List.mem_cons_self)

/-- The page that was read back is clean and shows what the written page holds. -/
structure ReadBack (page stored : Page) : Prop where
  id : stored.id = page.id
  schema : stored.schema = page.schema
  clean : stored.isDirty = false
  numSlots : stored.numSlots = page.numSlots
  used : ∀ slot, stored.isSlotUsed slot = page.isSlotUsed slot
  rows : ∀ slot, (stored.tuple? slot).map Tuple.fields = (page.tuple? slot).map Tuple.fields
  records : ∀ slot t, stored.tuple? slot = some t →
    ∃ record, t.record = some record ∧ record.page = page.id ∧ record.slot.toNat = slot

theorem Shaped.readBack {page : Page} (h : page.Shaped) (hsmall : page.numSlots ≤ Layout.maxSlots)
    {image : Bytes} (himage : page.toImage = .ok image) :
    ∃ stored, ofImage page.id page.schema image = .ok stored ∧ page.ReadBack stored := by
  obtain ⟨hlength, hback⟩ := h.rows_ofImage himage
  obtain ⟨stored, hstored, hrows⟩ := hback page.id
  obtain ⟨found, hfound, hid, hschema, hsize, hclean, hshaped⟩ :=
    shaped_ofImage page.id page.schema image
  rw [hstored] at hfound
  cases hfound
  have hslots : stored.numSlots = page.numSlots := by
    rw [hshaped.slots, h.slots, hschema, hsize, hlength]
  refine ⟨stored, hstored, hid, hschema, hclean, hslots, ?_, ?_, ?_⟩
  · intro slot
    rw [Bool.eq_iff_iff, hshaped.isSlotUsed_iff, h.isSlotUsed_iff, hrows]
  · intro slot
    rw [map_fields_tuple?, map_fields_tuple?, hrows]
  · intro slot t ht
    obtain ⟨_, _, hrecord⟩ := hshaped.stored slot t ht
    have hslot : slot < page.numSlots := by
      rw [← hslots]
      exact (List.getElem?_eq_some_iff.mp (tuple?_eq_some_iff.mp ht)).1
    refine ⟨stored.record slot, hrecord, hid, ?_⟩
    exact UInt16.toNat_ofNat_of_lt' (Nat.lt_of_lt_of_le hslot hsmall)

/-- After any changes of an empty page its bitmap and its slots fit the page, its image has the size of
a page, and it is read back from there. -/
theorem readBack_run (id : PageId) (schema : Schema) (size : Nat)
    (hsmall : Layout.slotCount schema.size size ≤ Layout.maxSlots) {calls : List PageCall}
    (hcalls : ∀ call ∈ calls, call.Plain) :
    let page := run calls (empty id schema size)
    ∃ body image stored, encodeSlots schema.size page.slots = .ok body ∧
      page.header.bytes.length + body.length ≤ size ∧ page.toImage = .ok image ∧
        image.length = size ∧ ofImage id schema image = .ok stored ∧ page.ReadBack stored := by
  intro page
  have h : page.Storable id schema size := (storable_empty id schema size).run hcalls
  have hvalid (t : Tuple) (ht : some t ∈ page.slots) : t.Valid := by
    obtain ⟨slot, hslot⟩ := List.mem_iff_getElem?.mp ht
    exact h.valid slot t (tuple?_eq_some_iff.mpr hslot)
  have hslots : page.numSlots ≤ Layout.maxSlots := by
    rwa [h.shaped.slots, h.schema, h.size]
  obtain ⟨image, himage⟩ := toImage_of_valid hvalid
  obtain ⟨body, hbody, _⟩ := map_eq_ok.mp himage
  obtain ⟨stored, hstored, hback⟩ := h.shaped.readBack hslots himage
  have hfits := h.shaped.length_slots hbody
  have hlength := (h.shaped.rows_ofImage himage).1
  rw [h.id, h.schema] at hstored
  rw [h.schema] at hbody
  rw [h.size] at hfits hlength
  exact ⟨body, image, stored, hbody, hfits, himage, hlength, hstored, hback⟩

/-- On a page of ten slots one of three texts is deleted, and a fourth insert takes its slot. -/
theorem readBack_run_ten_slots :
    let schema : Schema := ⟨[{ type := .integer }, { type := .char 6 }], List.cons_ne_nil _ _⟩
    let id : PageId := ⟨.number 7, 2⟩
    let row (n : Int32) (text : String) : Tuple := ⟨schema, [.int n, .str text], none⟩
    let calls : List PageCall := [.insert (row 1 "a"), .insert (row 2 "grün"), .insert (row 3 "cccccc"),
      .delete { row 0 "" with record := some ⟨id, 1⟩ }, .markDirty ⟨5⟩, .insert (row 4 "")]
    Layout.slotCount schema.size 148 = 10 ∧ Layout.slotCount schema.size 148 ≤ Layout.maxSlots ∧
      (∀ call ∈ calls, call.Plain) ∧
      (run calls (empty id schema 148)).rows.take 4 =
        [some [.int 1, .str "a"], some [.int 4, .str ""], some [.int 3, .str "cccccc"], none] ∧
      ∃ body image stored, encodeSlots schema.size (run calls (empty id schema 148)).slots = .ok body ∧
        (run calls (empty id schema 148)).header.bytes.length + body.length ≤ 148 ∧
        (run calls (empty id schema 148)).toImage = .ok image ∧ image.length = 148 ∧
        ofImage id schema image = .ok stored ∧ (run calls (empty id schema 148)).ReadBack stored := by
  intro schema id row calls
  have hsmall : Layout.slotCount schema.size 148 ≤ Layout.maxSlots := by decide
  have hcalls : ∀ call ∈ calls, call.Plain := by
    have hone : (row 1 "a").Valid := by decide +kernel
    have htwo : (row 2 "grün").Valid := by decide +kernel
    have hthree : (row 3 "cccccc").Valid := by decide +kernel
    have hfour : (row 4 "").Valid := by decide +kernel
    simp [calls, PageCall.Plain, hone, htwo, hthree, hfour]
  exact ⟨by decide, hsmall, hcalls, by decide +kernel, readBack_run id schema 148 hsmall hcalls⟩

end Page
end RowStore
