import Mathlib.Data.List.Basic
import RowStore.Proofs.Enumeration
import RowStore.Proofs.Transparency

/-!
# Scans of tables

A scan of a registered table enumerates the rows of the table's sheet, in page and slot order, each
under the schema of the scan and with its record. It comes to its end whatever the capacity of the
pool, and it does not read again the pages that it has left.
-/
namespace RowStore
open Relation Database

/-- The tuple that a reader sees of an entry, under a schema. -/
def Tuple.ofEntry (schema : Schema) (entry : Option RecordId × List Field) : Tuple :=
  { schema, fields := entry.2, record := entry.1 }

namespace Sheet

/-- The record of a place in the table. -/
def record (table : TableId) (place : Place) : RecordId :=
  ⟨⟨table, UInt32.ofNat place.1⟩, UInt16.ofNat place.2⟩

/-- The row at the place as a tuple under the schema. -/
def tuple? (sheet : Sheet) (table : TableId) (schema : Schema) (place : Place) : Option Tuple :=
  (sheet.cells.get? place).map fun fields => { schema, fields, record := some (record table place) }

/-- The rows of the sheet in page and slot order. -/
def tuples (sheet : Sheet) (file : TableFile) (schema : Schema) : List Tuple :=
  (sheet.places file.slotCount).filterMap (sheet.tuple? file.id schema)

end Sheet

theorem entries_eq_filterMap (id : PageId) {rows : List (Option (List Field))} {first : Nat}
    (cell : Nat → Option (List Field)) (h : ∀ i < rows.length, cell (first + i) = rows[i]?.join) :
    entries id first rows = (List.range' first rows.length).filterMap fun slot =>
      (cell slot).map fun fields => (some ⟨id, UInt16.ofNat slot⟩, fields) := by
  induction rows generalizing first with
  | nil => rfl
  | cons row rows ih =>
    have hfirst : cell first = row := by simpa using h 0 (Nat.succ_pos _)
    have hnext (i : Nat) (hi : i < rows.length) : cell (first + 1 + i) = rows[i]?.join := by
      rw [Nat.add_right_comm]
      exact h (i + 1) (Nat.succ_lt_succ hi)
    have hrest := ih hnext
    rw [List.length_cons, List.range'_succ, List.filterMap_cons, hfirst]
    cases row with
    | none => simpa using hrest
    | some fields => simpa using hrest

namespace Database

theorem Shows.entriesAt {db : Database} {file : TableFile} {sheet : Sheet} (h : Shows db file sheet)
    (hcoherent : db.Coherent) (hfile : db.catalog.file file.id = .ok file) {page : Nat}
    (hpage : page < sheet.pages) (schema : Schema) :
    (db.entriesAt file (UInt32.ofNat page)).map (Tuple.ofEntry schema) =
      ((List.range file.slotCount).map fun slot => (page, slot)).filterMap
        (sheet.tuple? file.id schema) := by
  have hcell (slot : Nat) (_ : slot < (db.rowsAt file (UInt32.ofNat page)).length) :
      sheet.cells.get? (page, 0 + slot) = (db.rowsAt file (UInt32.ofNat page))[slot]?.join := by
    rw [h.cells, if_pos hpage, Nat.zero_add]
  rw [Database.entriesAt, entries_eq_filterMap _ (fun slot => sheet.cells.get? (page, slot)) hcell,
    hcoherent.length_rowsAt hfile, List.map_filterMap, List.filterMap_map, List.range_eq_range']
  apply List.filterMap_congr
  intro slot _
  rw [Function.comp_apply, Sheet.tuple?, Option.map_map]
  rfl

theorem Shows.ahead {db : Database} {file : TableFile} {sheet : Sheet} (h : Shows db file sheet)
    (hcoherent : db.Coherent) (hfile : db.catalog.file file.id = .ok file) (schema : Schema) :
    ((⟨file, 0, file.pageTotal db.volume, []⟩ : Cursor).ahead db).map (Tuple.ofEntry schema) =
      sheet.tuples file schema := by
  rw [Sheet.tuples, Sheet.places, List.filterMap_flatMap, Cursor.ahead, List.map_nil, List.nil_append,
    List.map_flatMap, ← h.pages, ← List.range_eq_range']
  apply List.flatMap_congr
  intro page hpage
  exact h.entriesAt hcoherent hfile (List.mem_range.mp hpage) schema

end Database

namespace Cursor

/-- The tuple was read from one of the pages of the file before the bound. -/
structure Read (file : TableFile) (bound : Nat) (t : Tuple) : Prop where
  agrees : t.schema.Agrees file.schema
  holds : file.Holds t.fields
  place : ∃ record, t.record = some record ∧ record.page.table = file.id ∧
    record.page.number.toNat < bound

/-- The cursor has the pages of the file up to `total` ahead of it, and has read what it buffers. -/
structure Stands (cursor : Cursor) (file : TableFile) (total : Nat) : Prop where
  home : cursor.file = file
  left : cursor.nextPage + cursor.pagesLeft = total
  buffered : ∀ t ∈ cursor.buffered, Read file cursor.nextPage t

/-- The pages that the cursor still reads. -/
def reads (cursor : Cursor) (id : PageId) : Prop :=
  id.table = cursor.file.id ∧ cursor.nextPage ≤ id.number.toNat

theorem stands_start (file : TableFile) (total : Nat) :
    (⟨file, 0, total, []⟩ : Cursor).Stands file total :=
  ⟨rfl, Nat.zero_add total, fun t ht => by cases ht⟩

theorem read_of_fetched {db db' : Database} (h : db.Ready) {file : TableFile} {n : PageNo}
    (hfile : db.catalog.file file.id = .ok file) (hn : n.toNat < file.pageTotal db.volume)
    {frame : Frame} (hfetch : fetch ⟨file.id, n⟩ db = .ok frame db') {t : Tuple}
    (ht : t ∈ frame.page.tuples) {bound : Nat} (hbound : n.toNat < bound) : Read file bound t := by
  obtain ⟨_, _, home, hsound, hhome, hid, hrows⟩ := h.coherent.fetch_shows hfetch
  cases h.coherent.file_eq hfile hhome hid
  have hstored := Page.mem_tuples.mp ht
  obtain ⟨slot, hslot⟩ := List.mem_iff_getElem?.mp hstored
  obtain ⟨hagrees, _, hrecord⟩ := hsound.wellFormed.stored slot t (Page.tuple?_eq_some_iff.mpr hslot)
  rw [Page.record, hsound.identified] at hrecord
  refine ⟨hagrees, h.holds file hfile n hn t.fields ?_, _, hrecord, rfl, hbound⟩
  rw [← hrows]
  exact List.mem_map.mpr ⟨some t, hstored, rfl⟩

theorem advance_ok {file : TableFile} {total : Nat} (left page : Nat) {db : Database} (h : db.Ready)
    (hfile : db.catalog.file file.id = .ok file) (htotal : total ≤ file.pageTotal db.volume)
    (hsmall : file.pageTotal db.volume < UInt32.size) (hleft : page + left = total) :
    ∃ answer cursor db', advance file page left db = .ok answer (cursor, db') ∧
      cursor.Stands file total ∧ page ≤ cursor.nextPage ∧ ∀ t ∈ answer, Read file cursor.nextPage t := by
  induction left generalizing page db with
  | zero =>
    refine ⟨none, ⟨file, page, 0, []⟩, db, rfl, ⟨rfl, hleft, ?_⟩, Nat.le_refl _, ?_⟩
    · intro t ht
      cases ht
    · intro t ht
      cases ht
  | succ left ih =>
    have hpage : (UInt32.ofNat page).toNat = page := UInt32.toNat_ofNat_of_lt' (by omega)
    have hn : (UInt32.ofNat page).toNat < file.pageTotal db.volume := by omega
    obtain ⟨frame, middle, hfetch⟩ := h.fetch_ok (TableFile.checkPage_of_counted hsmall hn) hfile
    obtain ⟨hready, hsame⟩ := h.pages (h.coherent.fetch_shows hfetch).1
    have hread (t : Tuple) (ht : t ∈ frame.page.tuples) : Read file (page + 1) t :=
      read_of_fetched h hfile hn hfetch ht (by omega)
    rw [advance, hfetch]
    dsimp only
    cases htuples : frame.page.tuples with
    | nil =>
      obtain ⟨answer, cursor, db', hadvance, hstands, hle, hanswer⟩ := ih (page + 1) hready
        (by rwa [hsame.tables.catalog]) (by rwa [hsame.pages file hfile])
        (by rwa [hsame.pages file hfile]) (by omega)
      exact ⟨answer, cursor, db', hadvance, hstands, Nat.le_of_succ_le hle, hanswer⟩
    | cons t ts =>
      rw [htuples] at hread
      refine ⟨some t, _, middle, rfl, ⟨rfl, by dsimp only; omega, ?_⟩, Nat.le_succ _, ?_⟩
      · exact fun other hother => hread other (List.mem_cons_of_mem _ hother)
      · intro other hother
        cases hother
        exact hread t List.mem_cons_self

variable {file : TableFile} {total : Nat} {cursor : Cursor} {db : Database}

theorem next_ok (hstands : cursor.Stands file total) (h : db.Ready)
    (hfile : db.catalog.file file.id = .ok file) (htotal : total ≤ file.pageTotal db.volume)
    (hsmall : file.pageTotal db.volume < UInt32.size) :
    ∃ answer cursor' db', next (cursor, db) = .ok answer (cursor', db') ∧ cursor'.Stands file total ∧
      cursor.nextPage ≤ cursor'.nextPage ∧ ∀ t ∈ answer, Read file cursor'.nextPage t := by
  obtain ⟨home, page, left, buffered⟩ := cursor
  obtain ⟨rfl, hleft, hbuffered⟩ := hstands
  cases buffered with
  | nil => exact advance_ok left page h hfile htotal hsmall hleft
  | cons t ts =>
    refine ⟨some t, _, db, rfl, ⟨rfl, hleft, ?_⟩, Nat.le_refl _, ?_⟩
    · exact fun other hother => hbuffered other (List.mem_cons_of_mem _ hother)
    · intro other hother
      cases hother
      exact hbuffered t List.mem_cons_self

theorem ahead_of_rows {base : Database} (hstands : cursor.Stands file total) (hsmall : total < UInt32.size)
    (hrows : ∀ n : PageNo, cursor.nextPage ≤ n.toNat → n.toNat < total → db.rowsAt file n = base.rowsAt file n) :
    cursor.ahead db = cursor.ahead base := by
  rw [ahead, ahead]
  congr 1
  apply List.flatMap_congr
  intro page hpage
  rw [List.mem_range'_1, hstands.left] at hpage
  have hn : (UInt32.ofNat page).toNat = page := UInt32.toNat_ofNat_of_lt' (by omega)
  rw [entriesAt, entriesAt, hstands.home, hrows _ (hn.symm ▸ hpage.1) (hn.symm ▸ hpage.2)]

theorem ahead_of_keeps {base : Database} (hstands : cursor.Stands file (file.pageTotal base.volume))
    (hfile : base.catalog.file file.id = .ok file) (hsmall : file.pageTotal base.volume < UInt32.size)
    (hkeeps : base.Keeps cursor.reads db) : cursor.ahead db = cursor.ahead base :=
  ahead_of_rows hstands hsmall fun n hpage hn =>
    hkeeps.rows file hfile n ⟨by rw [hstands.home], hpage⟩ hn

end Cursor

namespace Source

theorem start_eq {base db : Database} {reads : PageId → Prop} (hkeeps : base.Keeps reads db)
    {file : TableFile} (hfile : base.catalog.file file.id = .ok file) :
    Cursor.start file db.volume = ⟨file, 0, file.pageTotal base.volume, []⟩ := by
  have hsmall := hkeeps.small file.id file (by rwa [hkeeps.tables.catalog])
  rw [Cursor.start, TableFile.numPages_toNat hsmall, hkeeps.pages file hfile]

theorem pullScan_ok {base db : Database} {file : TableFile} {cursor : Cursor} {schema : Schema}
    (hstands : cursor.Stands file (file.pageTotal base.volume))
    (hfile : base.catalog.file file.id = .ok file) (hsmall : file.pageTotal base.volume < UInt32.size)
    (hschema : schema.Agrees file.schema) (hkeeps : base.Keeps cursor.reads db) {rest : List Tuple}
    (hrest : rest = (cursor.ahead base).map (Tuple.ofEntry schema)) :
    ∃ cursor' db', pullScan schema (some cursor, db) = .ok rest.head? (some cursor', db') ∧
      ReflTransGen Paging db db' ∧ cursor'.Stands file (file.pageTotal base.volume) ∧
        rest.tail = (cursor'.ahead base).map (Tuple.ofEntry schema) ∧
          (∀ id, cursor'.reads id → cursor.reads id) ∧
            ∀ t ∈ rest.head?, t.Apart cursor'.reads ∧ t.Valid ∧ t.schema = schema := by
  have hcatalog : db.catalog.file file.id = .ok file := by rwa [hkeeps.tables.catalog]
  have htotal := hkeeps.pages file hfile
  obtain ⟨answer, cursor', db', hnext, hstands', hle, hread⟩ :=
    Cursor.next_ok hstands hkeeps.ready hcatalog (Nat.le_of_eq htotal.symm) (by rwa [htotal])
  obtain ⟨hpages, -, hahead, hend⟩ :=
    Cursor.next_spec hkeeps.ready.coherent (by rwa [hstands.home]) hnext
  have hfewer (id : PageId) (hid : cursor'.reads id) : cursor.reads id := by
    refine ⟨?_, Nat.le_trans hle hid.2⟩
    rw [hstands.home, hid.1, hstands'.home]
  have hkept := Cursor.ahead_of_keeps hstands' hfile hsmall ((hkeeps.paging hpages).mono hfewer)
  rw [Cursor.ahead_of_keeps hstands hfile hsmall hkeeps, hkept] at hahead
  rw [hkept] at hend
  rw [hahead] at hrest
  cases answer with
  | none =>
    rw [hend rfl] at hrest
    refine ⟨cursor', db', ?_, hpages, hstands', ?_, hfewer, ?_⟩
    · simp only [hrest, pullScan, hnext]
      rfl
    · rw [hrest, hend rfl]
      rfl
    · intro t ht
      rw [hrest] at ht
      cases ht
  | some t =>
    have hagrees : schema.Agrees t.schema := hschema.trans (hread t rfl).agrees.symm
    obtain ⟨record, hrecord, _, hlt⟩ := (hread t rfl).place
    refine ⟨cursor', db', ?_, hpages, hstands', ?_, hfewer, ?_⟩
    · simp only [hrest, pullScan, hnext, Tuple.resetSchema, if_pos hagrees]
      rfl
    · rw [hrest]
      rfl
    · intro seen hseen
      rw [hrest] at hseen
      cases hseen
      refine ⟨fun other hother hreads => ?_, Tuple.valid_of_holds (hread t rfl).holds hschema, rfl⟩
      cases hother.symm.trans hrecord
      exact Nat.not_lt_of_le hreads.2 hlt

/-- A scan enumerates the entries of the table under its schema. -/
def enumerateScan {base : Database} {file : TableFile} {schema : Schema}
    (hfile : base.catalog.file file.id = .ok file) (hsmall : file.pageTotal base.volume < UInt32.size)
    (hschema : schema.Agrees file.schema) :
    Enumeration (scan file schema) none base
      (((⟨file, 0, file.pageTotal base.volume, []⟩ : Cursor).ahead base).map (Tuple.ofEntry schema)) where
  ahead
    | some cursor, rest => cursor.Stands file (file.pageTotal base.volume) ∧
        rest = (cursor.ahead base).map (Tuple.ofEntry schema)
    | none, _ => False
  reads
    | some cursor => cursor.reads
    | none => fun _ => False
  start := by
    intro db hkeeps
    refine ⟨some (Cursor.start file db.volume), db, rfl, .refl, ?_⟩
    rw [start_eq hkeeps hfile]
    exact ⟨Cursor.stands_start file _, rfl⟩
  pull := by
    intro state rest db hahead hkeeps
    cases state with
    | none => exact hahead.elim
    | some cursor =>
      obtain ⟨cursor', db', hpull, hpages, hstands, hrest, hfewer, hfirst⟩ :=
        pullScan_ok hahead.1 hfile hsmall hschema hkeeps hahead.2
      exact ⟨some cursor', db', hpull, hpages, ⟨hstands, hrest⟩, hfewer, fun t ht => (hfirst t ht).1⟩
  restart := by
    intro state rest db hahead hkeeps
    cases state with
    | none => exact hahead.elim
    | some cursor =>
      refine ⟨some (Cursor.start cursor.file db.volume), db, rfl, .refl, ?_⟩
      rw [hahead.1.home, start_eq hkeeps hfile]
      exact ⟨Cursor.stands_start file _, rfl⟩

end Source
end RowStore
