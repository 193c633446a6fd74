import RowStore.Proofs.CallSteps

/-!
# Dirty marks are sound

In every state that inserts, deletes, fetches, flushes, commits, aborts and discards can reach, a
cached page without a mark has the contents of its page on disk. So a clean page may be dropped
without the loss of an update, which is what every eviction relies on.
-/
namespace RowStore

/-- The slots have the same rows at the same places. -/
structure Page.SameContents (page other : Page) : Prop where
  numSlots : page.numSlots = other.numSlots
  used : ∀ slot, page.isSlotUsed slot = other.isSlotUsed slot
  tuples : ∀ slot, Option.Rel (fun a b => Tuple.sameRow a b = true ∧ a.record = b.record)
    (page.tuple? slot) (other.tuple? slot)

theorem Page.SameContents.refl (page : Page) : page.SameContents page := by
  constructor
  case numSlots => rfl
  case used => exact fun _ => rfl
  case tuples =>
    intro slot
    cases page.tuple? slot with
    | none => exact .none
    | some t => exact .some ⟨by simp [Tuple.sameRow, Schema.Agrees], rfl⟩

/-- The slot is in use in both pages or in none, and it has the same row at the same place. -/
structure Page.SameRowAt (page other : Page) (slot : Nat) : Prop where
  used : page.isSlotUsed slot = other.isSlotUsed slot
  tuple : Option.Rel (fun a b => Tuple.sameRow a b = true ∧ a.record = b.record)
    (page.tuple? slot) (other.tuple? slot)

theorem Page.Shaped.sameRowAt {page other : Page} (h : page.Shaped) (hother : other.Shaped)
    (hid : page.id = other.id) (hagrees : page.schema.Agrees other.schema) {slot : Nat}
    (hrow : page.rows[slot]? = other.rows[slot]?) : page.SameRowAt other slot := by
  constructor
  case used => rw [Bool.eq_iff_iff, h.isSlotUsed_iff, hother.isSlotUsed_iff, hrow]
  case tuple =>
    have hfields : (page.tuple? slot).map Tuple.fields = (other.tuple? slot).map Tuple.fields := by
      rw [map_fields_tuple?, map_fields_tuple?, hrow]
    cases ht : page.tuple? slot with
    | none =>
      rw [ht, Option.map_none, eq_comm, Option.map_eq_none_iff] at hfields
      rw [hfields]
      exact .none
    | some a =>
      rw [ht, Option.map_some, eq_comm, Option.map_eq_some_iff] at hfields
      obtain ⟨b, hb, hsame⟩ := hfields
      obtain ⟨hschema, _, hrecord⟩ := h.stored slot a ht
      obtain ⟨hschema', _, hrecord'⟩ := hother.stored slot b hb
      rw [hb]
      apply Option.Rel.some
      refine ⟨?_, by rw [hrecord, hrecord', record, record, hid]⟩
      simp only [Tuple.sameRow, Bool.and_eq_true, decide_eq_true_eq]
      exact ⟨hschema.trans (hagrees.trans hschema'.symm), hsame.symm⟩

theorem Page.Shaped.sameContents {page other : Page} (h : page.Shaped) (hother : other.Shaped)
    (hid : page.id = other.id) (hagrees : page.schema.Agrees other.schema)
    (hrows : page.rows = other.rows) : page.SameContents other := by
  have hslot (slot : Nat) : page.SameRowAt other slot := h.sameRowAt hother hid hagrees (by rw [hrows])
  constructor
  case numSlots => rw [← length_rows, hrows, length_rows]
  case used => exact fun slot => (hslot slot).used
  case tuples => exact fun slot => (hslot slot).tuple

theorem Page.WellFormed.sameContents {file : TableFile} {page other : Page}
    (h : page.WellFormed file) (hother : other.WellFormed file) (hid : page.id = other.id)
    (hrows : page.rows = other.rows) : page.SameContents other :=
  h.shaped.sameContents hother.shaped hid (congrArg Schema.types (h.schema.trans hother.schema.symm)) hrows

namespace Database
open Page

/-- What the pool says of a cached page. -/
structure Honest (db : Database) (id : PageId) (page : Page) : Prop where
  identified : page.id = id
  counted : ∃ file, db.catalog.file id.table = .ok file ∧ id.number < file.numPages db.volume ∧
    /- Without a mark, it is what would be read from disk. -/
    (page.isDirty = false → ∃ stored,
      readPage file id db = .ok stored (db.countTransfer file Traffic.countRead) ∧
        stored.SameContents page)
  /-- Without a mark, it can be dropped, and readers see the same contents everywhere. -/
  droppable : page.isDirty = false → ∀ other,
    Option.Rel SameContents ((db.without id).page? other) (db.page? other)

theorem page?_without (db : Database) (id other : PageId) :
    (db.without id).page? other = if other = id then db.pageOnDisk? id else db.page? other := by
  rw [page?, page?]
  change ((db.pool.drop id).page? other).or (db.pageOnDisk? other) = _
  rw [Pool.page?_drop]
  by_cases h : other = id
  · rw [if_pos h, if_pos h, Option.none_or, h]
  · rw [if_neg h, if_neg h]

theorem Coherent.honest {db : Database} (h : db.Coherent) (hsmall : db.Small) {id : PageId}
    {page : Page} (hcached : db.pool.page? id = some page) : Honest db id page := by
  obtain ⟨file, hsound⟩ := h.cached id page hcached
  have hnumber : id.number < file.numPages db.volume := by
    rw [UInt32.lt_iff_toNat_lt, TableFile.numPages_toNat (hsmall _ file hsound.registered)]
    exact hsound.counted
  have hcheck : file.checkPage db.volume id = .ok () :=
    TableFile.checkPage_eq_ok.mpr ⟨(hsound.file_id h).symm, hnumber⟩
  obtain ⟨stored, hstored, hid, _, hformed, hrows⟩ := file.pageOnDisk_eq_ok db.volume id.number
  have hread := readPage_of_counted hcheck hstored
  have hsame (hclean : page.isDirty = false) : stored.SameContents page := by
    apply hformed.sameContents hsound.wellFormed
    · rw [hid, hsound.identified, hsound.file_id h]
    · rw [hrows, hsound.clean hclean]
  constructor
  case identified => exact hsound.identified
  case counted => exact ⟨file, hsound.registered, hnumber, fun hclean => ⟨stored, hread, hsame hclean⟩⟩
  case droppable =>
    intro hclean other
    rw [page?_without]
    by_cases hother : other = id
    · rw [if_pos hother, hother, page?_of_cached hcached,
        pageOnDisk?_of_readPage hsound.registered hread]
      exact .some (hsame hclean)
    · rw [if_neg hother]
      cases db.page? other with
      | none => exact .none
      | some found => exact .some (.refl found)

/-- In every state of a run, from whatever the files held at the start, every cached page is what the
pool says. -/
theorem honest_run {start : Database} (h : start.Fresh) {calls : List Call}
    (hcalls : ∀ call ∈ calls, call.EditsTuples) (hsmall : StaysSmall calls start) :
    ∀ id frame, (run calls start).pool.frames.get? id = some frame →
      Honest (run calls start) id frame.page := by
  intro id frame hframe
  apply (coherent_run hcalls h.coherent hsmall).honest hsmall.last
  rw [Pool.page?, hframe]
  rfl

/-- After an insert and a flush the page is cached without a mark. -/
theorem honest_run_insert_flush :
    let schema : Schema := ⟨[{ type := .integer }], List.cons_ne_nil _ _⟩
    let start := withTable { pageSize := 8, poolPages := 1 } "t" schema
    let calls : List Call := [.insert ⟨1⟩ (.file "t") ⟨schema, [.int 3], none⟩,
      .insert ⟨2⟩ (.file "t") ⟨schema, [.int 4], none⟩, .flushAll]
    start.Fresh ∧ (∀ call ∈ calls, call.EditsTuples) ∧ StaysSmall calls start ∧
      ((run calls start).pool.page? ⟨.file "t", 1⟩).map Page.isDirty = some false ∧
      ∀ id frame, (run calls start).pool.frames.get? id = some frame →
        Honest (run calls start) id frame.page := by
  intro schema start calls
  have hfresh : start.Fresh := fresh_withTable _ _ _
  have hcalls : ∀ call ∈ calls, call.EditsTuples := by
    have hthree : Tuple.ofFields schema [.int 3] = .ok ⟨schema, [.int 3], none⟩ := rfl
    have hfour : Tuple.ofFields schema [.int 4] = .ok ⟨schema, [.int 4], none⟩ := rfl
    simp [calls, Call.EditsTuples, Tuple.Built.ofFields hthree, Tuple.Built.ofFields hfour]
  have hsmall : StaysSmall calls start := by decide +kernel
  exact ⟨hfresh, hcalls, hsmall, by decide +kernel, honest_run hfresh hcalls hsmall⟩

end Database
end RowStore
