import RowStore.Proofs.DirtyMarks
import RowStore.Proofs.ImageRegions

/-!
# Pages of different histories

The image of a page depends on what its slots hold and not on the calls that have led there. The bits
past the last slot stay clear, so the bitmap says no more than the slots do; and the region of a free
slot and the padding are zeros. The main statement compares two histories of any lengths.
-/
namespace RowStore

theorem Tuple.encode_congr {a b : Tuple} (h : a.sameRow b = true) : a.encode = b.encode := by
  simp only [sameRow, Bool.and_eq_true, decide_eq_true_eq] at h
  obtain ⟨htypes, hfields⟩ := h
  rw [encode, encode, hfields, htypes]

theorem isSome_eq_of_rel {α : Type} {R : α → α → Prop} {a b : Option α} (h : Option.Rel R a b) :
    a.isSome = b.isSome := by
  cases h <;> rfl

namespace Page

theorem encodeSlot_congr {a b : Option Tuple} (h : Option.Rel (fun a b => Tuple.sameRow a b = true) a b)
    (width : Nat) : encodeSlot width a = encodeSlot width b := by
  cases h with
  | none => rfl
  | some hsame => exact Tuple.encode_congr hsame

/-- The bits of the bitmap past the last slot are clear. -/
def Clear (page : Page) : Prop := ∀ bit, page.numSlots ≤ bit → page.header.get bit = false

/-- The slots hold the same rows or nothing. -/
def SameRows (page other : Page) : Prop :=
  ∀ slot, Option.Rel (fun a b => Tuple.sameRow a b = true) (page.tuple? slot) (other.tuple? slot)

variable {page page' : Page}

theorem SameContents.sameRows (h : page.SameContents page') : page.SameRows page' := by
  intro slot
  have hslot := h.tuples slot
  generalize page.tuple? slot = a at hslot ⊢
  generalize page'.tuple? slot = b at hslot ⊢
  cases hslot with
  | none => exact .none
  | some hsame => exact .some hsame.1

theorem clear_empty (id : PageId) (schema : Schema) (size : Nat) : (empty id schema size).Clear :=
  fun _ _ => Bitmap.get_zero _ _

theorem Clear.set (h : page.Clear) (hmarked : page.Marked) {slot : Nat} (hslot : slot < page.numSlots)
    (on : Bool) {bit : Nat} (hbit : page.numSlots ≤ bit) : (page.header.set slot on).get bit = false := by
  rw [Bitmap.get_set _ _ _ _ (hmarked.slot_lt_bits hslot), if_neg (by omega), h bit hbit]

theorem Clear.leaves (h : page.Clear) (hmarked : page.Marked) (call : PageCall) :
    (call.leaves page).Clear := by
  rcases call.leaves_cases page with hleft | ⟨t, slot, _, _, hfree, hleft⟩ | ⟨slot, hused, hleft⟩ |
    ⟨mark, hleft⟩ <;> rw [hleft]
  · exact h
  · intro bit hbit
    rw [numSlots_fill] at hbit
    exact h.set hmarked ((page.freeSlot?_eq_some_iff slot).mp hfree).1 true hbit
  · intro bit hbit
    rw [numSlots_free] at hbit
    rw [isSlotUsed, Bool.and_eq_true, decide_eq_true_eq] at hused
    exact h.set hmarked hused.1 false hbit
  · exact h

theorem Clear.run (h : page.Clear) (hstep : page.InStep) (calls : List PageCall) :
    (run calls page).Clear := by
  induction calls generalizing page with
  | nil => exact h
  | cons call calls ih => exact ih (h.leaves hstep.bitmap call) (hstep.leaves call)

theorem header_eq (hmarked : page.Marked) (hmarked' : page'.Marked) (hclear : page.Clear)
    (hclear' : page'.Clear) (hslots : page.numSlots = page'.numSlots) (hsame : page.SameRows page') :
    page.header = page'.header := by
  refine Bitmap.eq_of_get (by rw [hmarked.header, hmarked'.header, hslots]) fun bit => ?_
  by_cases hbit : bit < page.numSlots
  · rw [hmarked.marked bit hbit, hmarked'.marked bit (by rwa [← hslots]), isSome_eq_of_rel (hsame bit)]
  · rw [hclear bit (Nat.le_of_not_lt hbit), hclear' bit (by omega)]

theorem encodeSlots_congr {width : Nat} {slots slots' : List (Option Tuple)}
    (h : slots.map (encodeSlot width) = slots'.map (encodeSlot width)) :
    encodeSlots width slots = encodeSlots width slots' := by
  induction slots generalizing slots' with
  | nil => rw [List.map_eq_nil_iff.mp h.symm]
  | cons first slots ih =>
    obtain ⟨first', rest, rfl, hfirst, hrest⟩ := List.map_eq_cons_iff.mp h.symm
    rw [encodeSlots, encodeSlots, hfirst, ih hrest.symm]

theorem SameRows.encodeSlots_eq (h : page.SameRows page') (hslots : page.numSlots = page'.numSlots)
    (width : Nat) : encodeSlots width page.slots = encodeSlots width page'.slots := by
  apply encodeSlots_congr
  refine List.ext_getElem (by rwa [List.length_map, List.length_map]) fun slot hslot hslot' => ?_
  rw [List.length_map] at hslot hslot'
  have hrow := h slot
  rw [tuple?, tuple?, List.getElem?_eq_getElem hslot, List.getElem?_eq_getElem hslot', Option.join_some,
    Option.join_some] at hrow
  rw [List.getElem_map, List.getElem_map]
  exact encodeSlot_congr hrow width

theorem Laid.zeros_of_free {image : Bytes} (h : page.Laid image) {slot : Nat} (hslot : slot < page.numSlots)
    (hfree : page.tuple? slot = none) : ∀ b ∈ Layout.slotBytes page.schema.size image slot, b = 0 := by
  rw [tuple?, List.getElem?_eq_getElem hslot, Option.join_some] at hfree
  have hstored := h.slot slot none (by rw [List.getElem?_eq_getElem hslot, hfree])
  rw [encodeSlot, Except.ok.injEq] at hstored
  rw [← hstored]
  exact fun b => List.eq_of_mem_replicate

/-- Pages of one schema and size whose slots hold the same rows in the end have one image, whatever calls
have led there. The image has the size of a page, and it has zeros in the regions of the free slots, in
the bits past the last slot and in the padding. -/
theorem toImage_eq_of_sameRows (id id' : PageId) (schema : Schema) (size : Nat)
    {calls calls' : List PageCall} (hcalls : ∀ call ∈ calls, call.Proper)
    (hcalls' : ∀ call ∈ calls', call.Proper)
    (hsame : (run calls (empty id schema size)).SameRows (run calls' (empty id' schema size))) :
    let page := run calls (empty id schema size)
    page.toImage = (run calls' (empty id' schema size)).toImage ∧
      ((∃ image, page.toImage = .ok image) ↔ ∀ t ∈ page.tuples, t.Valid) ∧
      ∀ image, page.toImage = .ok image → image.length = size ∧
        (∀ slot < page.numSlots, page.tuple? slot = none →
          ∀ b ∈ Layout.slotBytes schema.size image slot, b = 0) ∧
        (∀ bit, page.numSlots ≤ bit → bit / 8 < Layout.start schema.size image →
          (Bitmap.mk image).get bit = false) ∧
        ∀ b ∈ image.drop (Layout.stop schema.size image), b = 0 := by
  intro page
  have hempty := (storable_empty id schema size).shaped
  have hempty' := (storable_empty id' schema size).shaped
  have halike := hempty.alike_run hcalls
  have halike' := hempty'.alike_run hcalls'
  have hclear : page.Clear := (clear_empty id schema size).run hempty.inStep calls
  have hclear' := (clear_empty id' schema size).run hempty'.inStep calls'
  have hschema : page.schema = schema := halike.schema
  have hslots : page.numSlots = (run calls' (empty id' schema size)).numSlots := by
    rw [halike.shaped.slots, halike'.shaped.slots, halike.schema, halike'.schema, halike.size, halike'.size]
    rfl
  refine ⟨?_, halike.shaped.toImage_iff, fun image himage => ?_⟩
  · have hheader := header_eq halike.shaped.bitmap halike'.shaped.bitmap hclear hclear' hslots hsame
    rw [toImage, toImage, halike.schema, halike'.schema, hsame.encodeSlots_eq hslots, hheader, halike.size,
      halike'.size]
    rfl
  · have hlaid := halike.shaped.laid himage
    refine ⟨hlaid.length.trans halike.size, fun slot hslot hfree => ?_, fun bit hbit hlt => ?_, ?_⟩
    · rw [← hschema]
      exact hlaid.zeros_of_free hslot hfree
    · rw [← hschema] at hlt
      rw [hlaid.get_eq hlt, hclear bit hbit]
    · rw [← hschema]
      exact hlaid.rest

/-- Of five slots the first and the third hold a text in the end, after four calls and after ten of which
two fail. -/
theorem toImage_eq_of_sameRows_four_and_ten :
    let schema : Schema := ⟨[{ type := .char 3 }], List.cons_ne_nil _ _⟩
    let id : PageId := ⟨.number 7, 2⟩
    let row (text : String) : Tuple := ⟨schema, [.str text], none⟩
    let gone (slot : SlotId) : PageCall := .delete { row "" with record := some ⟨id, slot⟩ }
    let calls : List PageCall := [.insert (row "a"), .insert (row "b"), .insert (row "é"), gone 1]
    let calls' : List PageCall := [.insert (row "xyz"), .insert (row "ccc"), .insert (row "é"), gone 9,
      .insert (row "ddd"), gone 0, gone 3, gone 1, gone 1, .insert (row "a")]
    let page := run calls (empty id schema 38)
    let page' := run calls' (empty id schema 38)
    let image : Bytes := 5 :: [0, 0, 0, 1, 0x61, 0, 0] ++ List.replicate 7 0 ++
      [0, 0, 0, 2, 0xC3, 0xA9, 0] ++ List.replicate 16 0
    (∀ call ∈ calls, call.Proper) ∧ (∀ call ∈ calls', call.Proper) ∧ page.SameRows page' ∧
      page.numSlots = 5 ∧ page.toImage = .ok image ∧ page'.toImage = .ok image ∧ image.length = 38 := by
  intro schema id row gone calls calls' page page' image
  have hbuilt (text : String) (h : Tuple.ofFields schema [.str text] = .ok (row text)) :
      (row text).Built := .ofFields h
  have hcalls : ∀ call ∈ calls, call.Proper := by
    simp [calls, gone, hbuilt "a" rfl, hbuilt "b" rfl, hbuilt "é" rfl, PageCall.Proper]
  have hcalls' : ∀ call ∈ calls', call.Proper := by
    simp [calls', gone, hbuilt "xyz" rfl, hbuilt "ccc" rfl, hbuilt "é" rfl, hbuilt "ddd" rfl,
      hbuilt "a" rfl, PageCall.Proper]
  have hempty := (storable_empty id schema 38).shaped
  have hrows : page.rows = page'.rows := by decide +kernel
  have hsame : page.SameRows page' := ((hempty.alike_run hcalls).shaped.sameContents
    (hempty.alike_run hcalls').shaped (by decide +kernel) (by decide +kernel) hrows).sameRows
  have himage : page.toImage = .ok image := by decide +kernel
  obtain ⟨heq, -, hzeros⟩ := toImage_eq_of_sameRows id id schema 38 hcalls hcalls' hsame
  exact ⟨hcalls, hcalls', hsame, by decide +kernel, himage, heq ▸ himage, (hzeros image himage).1⟩

end Page
end RowStore
