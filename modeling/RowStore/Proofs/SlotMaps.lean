import RowStore.Proofs.PageImages
import RowStore.Proofs.StoredCells

/-!
# Slots and bitmap

A page says twice which of its slots are in use: in the bitmap, and by the tuples themselves. The main
statement says that the two agree on every page that can be reached, that an insert takes the least
free slot, that a delete empties the slot of the record, exactly when each of them is refused, and that
what is refused leaves the page as it was.
-/
namespace RowStore.Page
open Database

/-- The pages that there are: empty or read from an image, and then changed by calls. -/
inductive Reached : Page → Prop
  | empty (id : PageId) (schema : Schema) (size : Nat) : Reached (empty id schema size)
  | read {id : PageId} {schema : Schema} {image : Bytes} {page : Page}
      (h : ofImage id schema image = .ok page) : Reached page
  | call {page : Page} (reached : Reached page) (call : PageCall) : Reached (call.leaves page)

/-- The page has the slots that its size allows, bitmap and slots agree, and the stored tuples have the
page's schema and know their place. -/
structure InStep (page : Page) : Prop where
  slots : page.numSlots = Layout.slotCount page.schema.size page.size
  bitmap : page.Marked
  stored : ∀ slot t, page.tuple? slot = some t →
    t.schema.Agrees page.schema ∧ t.record = some (page.record slot)

variable {page page' : Page} {t : Tuple}

theorem Shaped.inStep (h : page.Shaped) : page.InStep := by
  refine ⟨h.slots, h.bitmap, fun slot t ht => ?_⟩
  obtain ⟨hagrees, _, hrecord⟩ := h.stored slot t ht
  exact ⟨hagrees, hrecord⟩

/-- Every call keeps bitmap and slots in step, whatever tuple it is given. -/
theorem InStep.leaves (h : page.InStep) (call : PageCall) : (call.leaves page).InStep := by
  -- The tuple may lack fields, so the page need not stay `Shaped`.
  rcases call.leaves_cases page with hleft | ⟨t, slot, _, hagrees, hfree, hleft⟩ |
    ⟨slot, hused, hleft⟩ | ⟨mark, hleft⟩ <;> rw [hleft]
  · exact h
  · have hslot := ((page.freeSlot?_eq_some_iff slot).mp hfree).1
    exact ⟨(numSlots_fill ..).trans h.slots, h.bitmap.fill hslot t,
      forall_tuple?_fill h.stored hslot ⟨hagrees, rfl⟩⟩
  · rw [isSlotUsed, Bool.and_eq_true, decide_eq_true_eq] at hused
    exact ⟨(numSlots_free ..).trans h.slots, h.bitmap.free hused.1,
      forall_tuple?_free h.stored slot⟩
  · exact ⟨h.slots, ⟨h.bitmap.header, h.bitmap.marked⟩, h.stored⟩

theorem Reached.inStep (h : page.Reached) : page.InStep := by
  induction h with
  | empty id schema size => exact (storable_empty id schema size).shaped.inStep
  | read h =>
    rw [ofImage_eq] at h
    cases h
    exact (shaped_stored ..).inStep
  | call _ call ih => exact ih.leaves call

/-- Everything but slots and bitmap is the same. -/
structure SameFrame (page page' : Page) : Prop where
  id : page'.id = page.id
  schema : page'.schema = page.schema
  size : page'.size = page.size
  dirtiedBy : page'.dirtiedBy = page.dirtiedBy
  numSlots : page'.numSlots = page.numSlots

/-- What a slot says in both places is the same. -/
def SameSlot (page page' : Page) (slot : Nat) : Prop :=
  page'.tuple? slot = page.tuple? slot ∧ page'.isSlotUsed slot = page.isSlotUsed slot

theorem Marked.sameSlot (h : page.Marked) (h' : page'.Marked) {slot : Nat}
    (htuple : page'.tuple? slot = page.tuple? slot) : page.SameSlot page' slot :=
  ⟨htuple, by rw [h'.isSlotUsed_eq, h.isSlotUsed_eq, htuple]⟩

/-- The tuple was put into the least free slot, and no other slot has changed. -/
structure Inserted (page : Page) (t : Tuple) (record : RecordId) (page' : Page) : Prop where
  agrees : t.schema.Agrees page.schema
  home : record.page = page.id
  inside : record.slot.toNat < page.numSlots
  free : page.tuple? record.slot.toNat = none
  least : ∀ before < record.slot.toNat, page.tuple? before ≠ none
  stored : page'.tuple? record.slot.toNat = some { t with record := some record }
  used : page'.isSlotUsed record.slot.toNat = true
  others : ∀ other ≠ record.slot.toNat, page.SameSlot page' other
  frame : page.SameFrame page'

/-- The slot of the tuple's record was emptied, and no other slot has changed. -/
structure Deleted (page : Page) (t : Tuple) (page' : Page) : Prop where
  emptied : ∃ record, t.record = some record ∧ record.page = page.id ∧
    (page.tuple? record.slot.toNat).isSome = true ∧ page'.tuple? record.slot.toNat = none ∧
    page'.isSlotUsed record.slot.toNat = false ∧
    ∀ other ≠ record.slot.toNat, page.SameSlot page' other
  frame : page.SameFrame page'

theorem InStep.inserted (h : page.InStep) (hsmall : page.numSlots ≤ Layout.maxSlots) {record : RecordId}
    (hinsert : insert t page = .ok record page') : page.Inserted t record page' := by
  rw [insert] at hinsert
  by_cases hagrees : t.schema.Agrees page.schema
  · rw [if_pos hagrees] at hinsert
    cases hfree : page.freeSlot? with
    | none =>
      rw [hfree] at hinsert
      cases hinsert
    | some slot =>
      rw [hfree] at hinsert
      cases hinsert
      obtain ⟨hslot, hnone, hbefore⟩ := (page.freeSlot?_eq_some_iff slot).mp hfree
      have hplace := page.slot_record hslot hsmall
      have hmarked := h.bitmap.fill hslot t
      have hstored : (page.fill slot t).tuple? slot = some { t with record := some (page.record slot) } := by
        rw [tuple?_fill page hslot, if_pos rfl]
      have hother (other : Nat) (hne : other ≠ slot) : page.SameSlot (page.fill slot t) other :=
        h.bitmap.sameSlot hmarked (by rw [tuple?_fill page hslot, if_neg hne.symm])
      constructor
      case agrees => exact hagrees
      case home => rfl
      case inside => rwa [hplace]
      case free => rwa [hplace]
      case least => rwa [hplace]
      case stored => rwa [hplace]
      case used => rw [hplace, hmarked.isSlotUsed_eq, hstored, Option.isSome_some]
      case others => rwa [hplace]
      case frame => exact ⟨rfl, rfl, rfl, rfl, numSlots_fill ..⟩
  · rw [if_neg hagrees] at hinsert
    cases hinsert

theorem InStep.deleted (h : page.InStep) (hdelete : delete t page = .ok () page') :
    page.Deleted t page' := by
  obtain ⟨record, hrecord, hpage, hused, rfl⟩ := delete_eq_ok.mp hdelete
  have hslot : record.slot.toNat < page.numSlots := by
    rw [isSlotUsed, Bool.and_eq_true, decide_eq_true_eq] at hused
    exact hused.1
  have hmarked := h.bitmap.free hslot
  have hnone : (page.free record.slot.toNat).tuple? record.slot.toNat = none := by
    rw [tuple?_free, if_pos rfl]
  refine ⟨⟨record, hrecord, hpage, by rwa [← h.bitmap.isSlotUsed_eq], hnone, ?_, fun other hne => ?_⟩,
    ⟨rfl, rfl, rfl, rfl, numSlots_free ..⟩⟩
  · rw [hmarked.isSlotUsed_eq, hnone, Option.isSome_none]
  · exact h.bitmap.sameSlot hmarked (by rw [tuple?_free, if_neg hne.symm])

theorem error_eq_error_iff {α : Type} {cause e : StoreError} :
    (.error cause page : EStateM.Result StoreError Page α) = .error e page' ↔ page' = page ∧ e = cause := by
  rw [EStateM.Result.error.injEq, eq_comm (a := cause), eq_comm (a := page), and_comm]

theorem insert_eq_error_iff {e : StoreError} :
    insert t page = .error e page' ↔ page' = page ∧
      (¬ t.schema.Agrees page.schema ∧ e = .schemaMismatch page.schema.text t.schema.text ∨
        t.schema.Agrees page.schema ∧ (∀ slot < page.numSlots, page.tuple? slot ≠ none) ∧
          e = .pageFull page.id) := by
  rw [insert, ← freeSlot?_eq_none_iff]
  by_cases hagrees : t.schema.Agrees page.schema
  · rw [if_pos hagrees]
    cases page.freeSlot? with
    | none =>
      rw [error_eq_error_iff]
      simp [hagrees]
    | some slot => simp [hagrees]
  · rw [if_neg hagrees, error_eq_error_iff]
    simp [hagrees]

/-- A delete is refused, and changes nothing, exactly for a tuple without a record, with one of another
page, or with one of a slot that is free or not there. -/
theorem InStep.delete_eq_error_iff (h : page.InStep) {e : StoreError} :
    delete t page = .error e page' ↔ page' = page ∧
      (t.record = none ∧ e = .missingRecordId ∨
        ∃ record, t.record = some record ∧
          (record.page ≠ page.id ∧ e = .recordNotOnPage record page.id ∨
            record.page = page.id ∧
              (page.numSlots ≤ record.slot.toNat ∨ page.tuple? record.slot.toNat = none) ∧
                e = .emptySlot page.id record.slot)) := by
  rw [delete]
  cases hrecord : t.record with
  | none =>
    rw [error_eq_error_iff]
    simp
  | some record =>
    have hfree : page.isSlotUsed record.slot.toNat = false ↔
        page.numSlots ≤ record.slot.toNat ∨ page.tuple? record.slot.toNat = none := by
      rw [h.bitmap.isSlotUsed_eq, Option.isSome_eq_false_iff, Option.isNone_iff_eq_none]
      constructor
      · exact Or.inr
      · rintro (hpast | hnone)
        · rw [tuple?, List.getElem?_eq_none hpast]
          rfl
        · exact hnone
    simp only [Option.some.injEq, exists_eq_left', reduceCtorEq, false_and, false_or, ← hfree]
    by_cases hpage : record.page = page.id
    · cases page.isSlotUsed record.slot.toNat with
      | true => simp [hpage]
      | false =>
        rw [if_neg (not_not_intro hpage), if_neg Bool.false_ne_true, error_eq_error_iff]
        simp [hpage]
    · rw [if_pos hpage, error_eq_error_iff]
      simp [hpage]

/-- A page that can be reached has the slots that its size allows, and its bitmap marks exactly those
that hold tuples, each of the page's schema and with the record of its slot. An insert puts its tuple
into the least free slot and a delete empties the slot that its record names; each changes no other
slot, is refused exactly where there is no such slot, and then leaves the whole page. -/
theorem slots_of_reached (h : page.Reached) (hsmall : page.numSlots ≤ Layout.maxSlots) :
    page.numSlots = Layout.slotCount page.schema.size page.size ∧
      (∀ slot < page.numSlots, page.header.get slot = (page.tuple? slot).isSome) ∧
      (∀ slot t, page.tuple? slot = some t → t.schema.Agrees page.schema ∧
        ∃ record, t.record = some record ∧ record.page = page.id ∧ record.slot.toNat = slot) ∧
      (∀ t record page', insert t page = .ok record page' → page.Inserted t record page') ∧
      (∀ t e page', insert t page = .error e page' ↔ page' = page ∧
        (¬ t.schema.Agrees page.schema ∧ e = .schemaMismatch page.schema.text t.schema.text ∨
          t.schema.Agrees page.schema ∧ (∀ slot < page.numSlots, page.tuple? slot ≠ none) ∧
            e = .pageFull page.id)) ∧
      (∀ t page', delete t page = .ok () page' → page.Deleted t page') ∧
      (∀ t e page', delete t page = .error e page' ↔ page' = page ∧
        (t.record = none ∧ e = .missingRecordId ∨
          ∃ record, t.record = some record ∧
            (record.page ≠ page.id ∧ e = .recordNotOnPage record page.id ∨
              record.page = page.id ∧
                (page.numSlots ≤ record.slot.toNat ∨ page.tuple? record.slot.toNat = none) ∧
                  e = .emptySlot page.id record.slot))) ∧
      ∀ (call : PageCall) e page', call.perform page = .error e page' → page' = page := by
  have hstep := h.inStep
  refine ⟨hstep.slots, hstep.bitmap.marked, fun slot t ht => ?_, fun t record page' => hstep.inserted hsmall,
    fun t e page' => insert_eq_error_iff, fun t page' => hstep.deleted,
    fun t e page' => hstep.delete_eq_error_iff, fun call e page' hcall => ?_⟩
  · obtain ⟨hagrees, hrecord⟩ := hstep.stored slot t ht
    have hslot : slot < page.numSlots :=
      (List.getElem?_eq_some_iff.mp (tuple?_eq_some_iff.mp ht)).1
    exact ⟨hagrees, page.record slot, hrecord, rfl, page.slot_record hslot hsmall⟩
  · cases call with
    | insert t => exact insertEdit_eq_error hcall
    | delete t => exact delete_eq_error hcall
    | markDirty txn => cases hcall
    | markClean => cases hcall

/-- Of the three slots of an image with other marks behind them the middle one is free. Once the first
is deleted, it cannot be deleted again, and it is the first to be filled. -/
theorem slots_of_reached_refilled :
    let schema : Schema := ⟨[{ type := .integer }, { type := .char 3 }], List.cons_ne_nil _ _⟩
    let image : Bytes := [0xE5] ++ List.replicate 39 0
    let id : PageId := ⟨.number 7, 2⟩
    let row : Tuple := ⟨schema, [.int 5, .str "ab"], some ⟨id, 0⟩⟩
    let page := (stored id schema image).free 0
    page.Reached ∧ page.numSlots ≤ Layout.maxSlots ∧ page.slots.map Option.isSome = [false, false, true] ∧
      (∀ slot < page.numSlots, page.header.get slot = (page.tuple? slot).isSome) ∧
      delete row (stored id schema image) = .ok () page ∧ delete row page = .error (.emptySlot id 0) page ∧
      ∃ page', insert row page = .ok ⟨id, 0⟩ page' ∧ page.Inserted row ⟨id, 0⟩ page' := by
  intro schema image id row page
  have hused : (stored id schema image).isSlotUsed 0 = true := by decide +kernel
  have hdelete : delete row (stored id schema image) = .ok () page :=
    delete_eq_ok.mpr ⟨⟨id, 0⟩, rfl, rfl, hused, rfl⟩
  have hreached : page.Reached := by
    have hleft := (Reached.read (ofImage_eq id schema image)).call (.delete row)
    rwa [PageCall.leaves, PageCall.perform, hdelete] at hleft
  have hsmall : page.numSlots ≤ Layout.maxSlots := by decide +kernel
  obtain ⟨-, hmarks, -, hinserted, -, -, hrefused, -⟩ := slots_of_reached hreached hsmall
  have hgone : page.tuple? 0 = none := by decide +kernel
  have hagain : delete row page = .error (.emptySlot id 0) page :=
    (hrefused row (.emptySlot id 0) page).mpr
      ⟨rfl, Or.inr ⟨⟨id, 0⟩, rfl, Or.inr ⟨rfl, Or.inr hgone, rfl⟩⟩⟩
  have hagrees : row.schema.Agrees page.schema := rfl
  have hfree : page.freeSlot? = some 0 := by decide +kernel
  have hinsert : insert row page = .ok ⟨id, 0⟩ (page.fill 0 row) := by
    rw [insert, if_pos hagrees, hfree]
    rfl
  exact ⟨hreached, hsmall, by decide +kernel, hmarks, hdelete, hagain, page.fill 0 row, hinsert,
    hinserted row ⟨id, 0⟩ _ hinsert⟩

end RowStore.Page
