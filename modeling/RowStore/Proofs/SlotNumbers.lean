import RowStore.Proofs.Runs
import RowStore.Proofs.SlotMaps

/-!
# The numbers of slots

The slot count charges a slot its bytes and one bit, and no page has room for more slots than that, with
the bitmap rounded up to whole bytes. A file is opened for such pages only whose slots can all be numbered.
The main statement says so, and that on its pages every slot lies inside the page and the records of two
slots differ.
-/
namespace RowStore

namespace Page

theorem record_injective_iff (page : Page) :
    (∀ slot < page.numSlots, ∀ other < page.numSlots, page.record slot = page.record other →
      slot = other) ↔ page.numSlots ≤ Layout.maxSlots := by
  constructor
  · intro hinjective
    refine Nat.le_of_not_lt fun hmany => ?_
    -- The first slot without a number of its own takes the number of slot zero.
    have hwrapped : page.record 0 = page.record Layout.maxSlots := rfl
    exact absurd (hinjective 0 (Nat.zero_lt_of_lt hmany) _ hmany hwrapped) (by decide)
  · intro hsmall slot hslot other hother hrecord
    rw [← page.slot_record hslot hsmall, hrecord, page.slot_record hother hsmall]

theorem InStep.slot_unique {page : Page} (h : page.InStep) (hsmall : page.numSlots ≤ Layout.maxSlots)
    {slot other : Nat} {t u : Tuple} (ht : page.tuple? slot = some t) (hu : page.tuple? other = some u)
    (hrecord : t.record = u.record) : slot = other := by
  have hinside {n : Nat} {stored : Tuple} (hstored : page.tuple? n = some stored) : n < page.numSlots :=
    (List.getElem?_eq_some_iff.mp (tuple?_eq_some_iff.mp hstored)).1
  rw [(h.stored slot t ht).2, (h.stored other u hu).2, Option.some.injEq] at hrecord
  exact page.record_injective_iff.mpr hsmall slot (hinside ht) other (hinside hu) hrecord

end Page

namespace Database

theorem exists_openFile_iff (path : String) (schema : Schema) (size : Nat) (db : Database) :
    (∃ file db', openFile path schema size db = .ok file db') ↔
      (∃ name, Path.resolve? path = some name) ∧ 1 ≤ Layout.slotCount schema.size size ∧
        Layout.slotCount schema.size size ≤ Layout.maxSlots := by
  rcases openFile_cases path schema size db with
    ⟨file, hname, rfl, rfl, _, hopen⟩ | ⟨hbad, e, hopen⟩
  · exact ⟨fun _ => ⟨⟨_, hname⟩, file.slotCount_pos, file.slotCount_le⟩, fun _ => ⟨file, _, hopen⟩⟩
  · constructor
    · rintro ⟨file, db', hok⟩
      rw [hopen] at hok
      cases hok
    · rintro ⟨⟨name, hname⟩, hpos, hle⟩
      rcases hbad with hnone | hzero | hmany
      · rw [hnone] at hname
        cases hname
      · omega
      · omega

theorem openFile_eq_ok {path : String} {schema : Schema} {size : Nat} {db db' : Database}
    {file : TableFile} (h : openFile path schema size db = .ok file db') :
    file.schema = schema ∧ file.pageSize = size := by
  rcases openFile_cases path schema size db with ⟨_, _, hschema, hsize, _, hopen⟩ | ⟨_, e, hopen⟩
  · rw [hopen] at h
    cases h
    exact ⟨hschema, hsize⟩
  · rw [hopen] at h
    cases h

/-- As many slots fit a page, together with their bitmap of whole bytes, as the slot count says and no more.
A file is opened exactly if there is a slot on a page and a number for each one. However a page of the file
was made and changed, it has the slots that fit it. Each of them lies inside the page behind the bitmap, and
its number leads back to it; so no two slots, and no two stored tuples, have the same record. -/
theorem slots_of_opened :
    (∀ tupleSize pageSize slots, slots ≤ Layout.slotCount tupleSize pageSize ↔
      Layout.headerSize slots + slots * tupleSize ≤ pageSize) ∧
    (∀ path schema size db, (∃ file db', openFile path schema size db = .ok file db') ↔
      (∃ name, Path.resolve? path = some name) ∧ 1 ≤ Layout.slotCount schema.size size ∧
        Layout.slotCount schema.size size ≤ Layout.maxSlots) ∧
    ∀ path schema size db file db', openFile path schema size db = .ok file db' →
      file.schema = schema ∧ file.pageSize = size ∧
      ∀ page : Page, page.Reached → page.schema = schema → page.size = size →
        page.numSlots = Layout.slotCount schema.size size ∧
        (∀ slot < page.numSlots,
          Layout.headerSize page.numSlots + (slot + 1) * schema.size ≤ size ∧
            (UInt16.ofNat slot).toNat = slot) ∧
        (∀ slot < page.numSlots, ∀ other < page.numSlots, page.record slot = page.record other →
          slot = other) ∧
        ∀ slot other t u, page.tuple? slot = some t → page.tuple? other = some u →
          t.record = u.record → slot = other := by
  refine ⟨Layout.le_slotCount_iff, exists_openFile_iff, fun path schema size db file db' hopen => ?_⟩
  obtain ⟨hschema, hsize⟩ := openFile_eq_ok hopen
  refine ⟨hschema, hsize, fun page hreached hpageSchema hpageSize => ?_⟩
  have hstep := hreached.inStep
  have hslots : page.numSlots = Layout.slotCount schema.size size := by
    rw [hstep.slots, hpageSchema, hpageSize]
  have hsmall : page.numSlots ≤ Layout.maxSlots := by
    rw [hslots]
    exact ((exists_openFile_iff path schema size db).mp ⟨file, db', hopen⟩).2.2
  refine ⟨hslots, fun slot hslot => ⟨?_, page.slot_record hslot hsmall⟩,
    page.record_injective_iff.mpr hsmall, fun slot other t u => hstep.slot_unique hsmall⟩
  rw [hslots] at hslot ⊢
  exact Layout.slot_succ_le hslot

/-- Pages of 270336 bytes are full of integers and their bitmap, the last of which has the last number. Five
bytes more make room for one that has none. -/
theorem slots_of_opened_all_numbers :
    let schema : Schema := ⟨[{ type := .integer }], List.cons_ne_nil _ _⟩
    let db : Database := .new {}
    let page := Page.empty ⟨.file "t.dat", 3⟩ schema 270336
    (∃ file db', openFile "t.dat" schema 270336 db = .ok file db') ∧
      (¬ ∃ file db', openFile "t.dat" schema 270341 db = .ok file db') ∧
      page.Reached ∧ page.numSlots = 65536 ∧
      Layout.headerSize page.numSlots + (65535 + 1) * schema.size ≤ 270336 ∧
      (UInt16.ofNat 65535).toNat = 65535 := by
  intro schema db page
  obtain ⟨-, haccepts, hpages⟩ := slots_of_opened
  have hopen : ∃ file db', openFile "t.dat" schema 270336 db = .ok file db' :=
    (haccepts "t.dat" schema 270336 db).mpr ⟨⟨"t.dat", by decide +kernel⟩, by decide, by decide⟩
  have hrefused : ¬ ∃ file db', openFile "t.dat" schema 270341 db = .ok file db' := by
    rw [haccepts]
    exact fun h => absurd h.2.2 (by decide)
  obtain ⟨file, db', hfile⟩ := hopen
  obtain ⟨-, -, hpage⟩ := hpages _ _ _ _ _ _ hfile
  have hreached : page.Reached := .empty ..
  obtain ⟨hslots, hinside, -⟩ := hpage page hreached rfl rfl
  have hcount : page.numSlots = 65536 := hslots.trans (by decide)
  exact ⟨⟨file, db', hfile⟩, hrefused, hreached, hcount, hinside 65535 (by rw [hcount]; decide)⟩

end Database
end RowStore
