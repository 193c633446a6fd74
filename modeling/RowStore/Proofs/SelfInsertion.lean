import RowStore.Proofs.Changes
import RowStore.Proofs.RegularStates
import RowStore.Proofs.SheetCopies
import RowStore.Proofs.TableScans
import RowStore.Query.Plan

/-!
# Inserts of a table into itself

An insert whose child scans the same table adds rows to pages that the scan may still have before it.
The scan visits the pages that the table had at the start, and it buffers the rows of a page before the
first of them is inserted. So the insert copies rows as they are copied within the sheet, and it copies
each row once exactly if the copies stay behind the scan.
-/
namespace RowStore
open Relation Database

namespace Source
variable {file : TableFile} {schema : Schema} {cursor cursor' : Cursor} {db db' : Database}

theorem next_scan_of_end (hnext : Cursor.next (cursor, db) = .ok none (cursor', db')) :
    (scan file schema).next (.opened (some cursor), db) = .ok none (.opened (some cursor'), db') := by
  apply next_of_pull
  simp only [scan, pullScan, hnext]

theorem next_scan_of_some {t : Tuple} (hnext : Cursor.next (cursor, db) = .ok (some t) (cursor', db'))
    (hagrees : schema.Agrees t.schema) : (scan file schema).next (.opened (some cursor), db) =
      .ok (some { t with schema }) (.opened (some cursor'), db') := by
  apply next_of_pull
  simp only [scan, pullScan, hnext, Tuple.resetSchema, if_pos hagrees]

end Source

namespace Database

/-- A valid tuple is inserted, unless there is neither a free place nor a number for a new page. -/
theorem Ready.insert_cases {db : Database} (h : db.Ready) (hsmall : db.Small) {sheets : Sheets}
    (hm : Matches db sheets) (txn : TransactionId) {file : TableFile}
    (hfile : db.catalog.file file.id = .ok file) {t : Tuple} (hvalid : t.Valid)
    (hagrees : t.schema.Agrees file.schema) :
    (∃ db', insertTuple txn file.id t db = .ok () db' ∧ db'.Ready ∧ db'.Small ∧ SameTables db db' ∧
      Matches db' (sheets.put file.id ((sheets file.id).insert file.slotCount t.fields))) ∨
    ∃ e db', insertTuple txn file.id t db = .error e db' ∧
      (sheets file.id).free? file.slotCount = none ∧ UInt32.size ≤ (sheets file.id).pages + 1 := by
  have htotal := hsmall _ _ hfile
  have hinsert := insertTuple_eq txn t hfile
  rw [if_pos hagrees] at hinsert
  rcases h.insertAmong_cases txn hvalid hagrees _ 0 hfile
    ((Nat.zero_add _).trans (TableFile.numPages_toNat htotal)) htotal with
    ⟨frames, db', hamong, hready, hinserted⟩ | ⟨e, db', hamong, hfull, _, hlimit⟩
  · rw [hamong] at hinsert
    exact Or.inl ⟨db', hinsert, hready, hinserted.small h.coherent hsmall hfile, hinserted.others.1,
      hm.inserted h.coherent hfile htotal hinserted⟩
  · rw [hamong] at hinsert
    have hshows := hm file hfile
    refine Or.inr ⟨e, db', hinsert, hshows.free?_eq_none h.coherent hfile htotal hfull, ?_⟩
    rwa [hshows.pages]

theorem Shows.start_eq {db : Database} {file : TableFile} {sheet : Sheet} (h : Shows db file sheet)
    (hsmall : file.pageTotal db.volume < UInt32.size) :
    Cursor.start file db.volume = ⟨file, 0, sheet.pages, []⟩ := by
  rw [Cursor.start, TableFile.numPages_toNat hsmall, h.pages]

theorem Shows.fields_tuples {db db' : Database} {file : TableFile} {sheet : Sheet} (h : Shows db file sheet)
    (hcoherent : db.Coherent) (hfile : db.catalog.file file.id = .ok file) {page : Nat}
    (hpage : page < sheet.pages) {frame : Frame}
    (hfetch : fetch ⟨file.id, UInt32.ofNat page⟩ db = .ok frame db') :
    frame.page.tuples.map Tuple.fields = sheet.pageRows file.slotCount page := by
  obtain ⟨_, _, home, hsound, hhome, hid, hrows⟩ := hcoherent.fetch_shows hfetch
  cases hcoherent.file_eq hfile hhome hid
  have hentries := hsound.wellFormed.shaped.entries
  rw [hsound.identified, hrows] at hentries
  have hplaces := congrArg (List.map Tuple.fields) (h.entriesAt hcoherent hfile hpage file.schema)
  rw [Database.entriesAt, ← hentries, List.filterMap_map, List.map_filterMap, List.map_map,
    List.map_map] at hplaces
  rw [Sheet.pageRows]
  refine hplaces.trans (List.filterMap_congr fun slot _ => ?_)
  rw [Function.comp_apply, Sheet.tuple?, Option.map_map]
  exact Option.map_id'

end Database

/-- All rows that were read from the first pages have been inserted, except those that wait. -/
def Sheet.CopiedBut (base sheet : Sheet) (slots n page : Nat) (waiting : List (List Field)) : Prop :=
  base.copied slots page = (n + waiting.length, sheet.insertAll slots waiting)

theorem Sheet.CopiedBut.turn {base sheet : Sheet} {slots n page : Nat}
    (h : base.CopiedBut sheet slots n page []) :
    base.CopiedBut sheet slots n (page + 1) (sheet.pageRows slots page) := by
  have hbefore : base.copied slots page = (n, sheet) := h
  rw [CopiedBut, copied, hbefore]

theorem Sheet.CopiedBut.insert {base sheet : Sheet} {slots n page : Nat} {row : List Field}
    {waiting : List (List Field)} (h : base.CopiedBut sheet slots n page (row :: waiting)) :
    base.CopiedBut (sheet.insert slots row) slots (n + 1) page waiting := by
  rw [CopiedBut, h, List.length_cons, Nat.add_right_comm]
  rfl

namespace Cursor
variable {sheet : Sheet} {file : TableFile} {db db' : Database} {answer : Option Tuple}

/-- The rows of the tuples that the cursor buffers. -/
def bufferedRows (cursor : Cursor) : List (List Field) := cursor.buffered.map Tuple.fields

theorem advance_turns {motive : Nat → List (List Field) → Prop}
    (hturn : ∀ page, motive page [] → motive (page + 1) (sheet.pageRows file.slotCount page))
    {cursor : Cursor} {left page : Nat} (h : db.Coherent) (hfile : db.catalog.file file.id = .ok file)
    (hshows : Shows db file sheet) (hpages : page + left ≤ sheet.pages) (hpage : motive page [])
    (hadvance : advance file page left db = .ok answer (cursor, db')) :
    motive cursor.nextPage ((answer.map Tuple.fields).toList ++ cursor.bufferedRows) ∧
      (answer = none → cursor.nextPage = page + left ∧ cursor.bufferedRows = []) := by
  induction left generalizing page db with
  | zero =>
    cases hadvance
    exact ⟨hpage, fun _ => ⟨rfl, rfl⟩⟩
  | succ left ih =>
    rw [advance] at hadvance
    cases hfetch : fetch ⟨file.id, UInt32.ofNat page⟩ db with
    | error e middle =>
      rw [hfetch] at hadvance
      cases hadvance
    | ok frame middle =>
      rw [hfetch] at hadvance
      dsimp only at hadvance
      obtain ⟨hcoherent, hsame⟩ := h.pages (h.fetch_shows hfetch).1
      have hnext := hturn page hpage
      rw [← hshows.fields_tuples h hfile (by omega) hfetch] at hnext
      cases htuples : frame.page.tuples with
      | nil =>
        rw [htuples] at hadvance hnext
        obtain ⟨hrest, hend⟩ := ih hcoherent (by rwa [hsame.tables.catalog])
          (hshows.of_same (hsame.pages file hfile) (hsame.rows file hfile)) (by omega) hnext hadvance
        exact ⟨hrest, fun hnone => ⟨by rw [(hend hnone).1]; omega, (hend hnone).2⟩⟩
      | cons t ts =>
        rw [htuples] at hadvance hnext
        cases hadvance
        exact ⟨hnext, fun hnone => by cases hnone⟩

theorem next_turns {motive : Nat → List (List Field) → Prop}
    (hturn : ∀ page, motive page [] → motive (page + 1) (sheet.pageRows file.slotCount page))
    {cursor : Cursor} {total : Nat} (hstands : cursor.Stands file total) (h : db.Ready) (hsmall : db.Small)
    (hfile : db.catalog.file file.id = .ok file) (hshows : Shows db file sheet)
    (hpages : total ≤ sheet.pages) (hcursor : motive cursor.nextPage cursor.bufferedRows) :
    ∃ answer cursor' db', next (cursor, db) = .ok answer (cursor', db') ∧ ReflTransGen Paging db db' ∧
      cursor'.Stands file total ∧
      motive cursor'.nextPage ((answer.map Tuple.fields).toList ++ cursor'.bufferedRows) ∧
      (answer = none → cursor'.nextPage = total ∧ cursor'.bufferedRows = []) ∧
      ∀ t ∈ answer, t.schema.Agrees file.schema ∧ file.Holds t.fields := by
  have hhome : db.catalog.file cursor.file.id = .ok cursor.file := by
    rw [hstands.home]
    exact hfile
  obtain ⟨answer, cursor', db', hnext, hstands', _, hread⟩ :=
    next_ok hstands h hfile (hshows.pages ▸ hpages) (hsmall _ _ hfile)
  refine ⟨answer, cursor', db', hnext, (next_spec h.coherent hhome hnext).1, hstands', ?_⟩
  rw [← and_assoc]
  refine ⟨?_, fun t ht => ⟨(hread t ht).agrees, (hread t ht).holds⟩⟩
  obtain ⟨home, page, left, buffered⟩ := cursor
  obtain ⟨rfl, rfl, _⟩ := hstands
  cases buffered with
  | nil => exact advance_turns hturn h.coherent hfile hshows hpages hcursor hnext
  | cons t ts =>
    cases hnext
    exact ⟨hcursor, fun hnone => by cases hnone⟩

end Cursor

/-- How many rows a scan of the file copies into it, and the sheet after that. -/
def Sheets.copied (sheets : Sheets) (file : TableFile) : Nat × Sheet :=
  (sheets file.id).copied file.slotCount (sheets file.id).pages

/-- The loop over a scan of the file has inserted `n` rows, and of those that were read the given rows
wait. -/
structure Copying (sheets : Sheets) (file : TableFile) (cursor : Cursor) (waiting : List (List Field))
    (n : Nat) (sheet : Sheet) (db : Database) : Prop where
  ready : db.Ready
  small : db.Small
  registered : db.catalog.file file.id = .ok file
  shown : Matches db (sheets.put file.id sheet)
  bounded : (sheets file.id).Bounded file.slotCount
  inserted : ∃ rows, rows.length = n ∧ sheet = (sheets file.id).insertAll file.slotCount rows
  stands : cursor.Stands file (sheets file.id).pages
  copied : (sheets file.id).CopiedBut sheet file.slotCount n cursor.nextPage waiting
  counted : n ≤ 2147483647

/-- The loop is about to take a tuple, and the rows that the cursor buffers wait. -/
def Copies (sheets : Sheets) (file : TableFile) (s : (Lookahead (Option Cursor) × Nat) × Database) : Prop :=
  ∃ cursor sheet, s.1.1 = .opened (some cursor) ∧
    Copying sheets file cursor cursor.bufferedRows s.1.2 sheet s.2

/-- The loop fails, because there are more copies than can be counted or stored. -/
structure CopyFails (sheets : Sheets) (file : TableFile) (e : Fault) : Prop where
  exceeds : 2147483647 < (sheets.copied file).1
  fault : ((sheets file.id).rows file.slotCount).length ≤ 2147483647 → e = .violation .counterOverflow

/-- The loop ends with all rows copied and counted, or it fails. -/
inductive CopyEnds (sheets : Sheets) (file : TableFile) :
    EStateM.Result Fault ((Lookahead (Option Cursor) × Nat) × Database) Unit → Prop
  | counted {look : Lookahead (Option Cursor)} {db : Database} (fits : (sheets.copied file).1 ≤ 2147483647)
      (ready : db.Ready) (small : db.Small) (shown : Matches db (sheets.put file.id (sheets.copied file).2)) :
      CopyEnds sheets file (.ok () ((look, (sheets.copied file).1), db))
  | failed {look : Lookahead (Option Cursor)} {n : Nat} {db : Database} {e : Fault}
      (fails : CopyFails sheets file e) : CopyEnds sheets file (.error e ((look, n), db))

namespace Copying
variable {sheets : Sheets} {file : TableFile} {cursor : Cursor} {waiting : List (List Field)} {n : Nat}
  {sheet : Sheet} {db : Database}

theorem shows (h : Copying sheets file cursor waiting n sheet db) : Shows db file sheet := by
  have hshows := h.shown file h.registered
  rwa [Sheets.put_self] at hshows

theorem next (h : Copying sheets file cursor cursor.bufferedRows n sheet db) :
    ∃ answer cursor' db', Cursor.next (cursor, db) = .ok answer (cursor', db') ∧
      Copying sheets file cursor' ((answer.map Tuple.fields).toList ++ cursor'.bufferedRows) n sheet db' ∧
      (answer = none → cursor'.nextPage = (sheets file.id).pages ∧ cursor'.bufferedRows = []) ∧
      ∀ t ∈ answer, t.schema.Agrees file.schema ∧ file.Holds t.fields := by
  have hpages : (sheets file.id).pages ≤ sheet.pages := by
    obtain ⟨rows, _, rfl⟩ := h.inserted
    exact Sheet.pages_le_insertAll file.slotCount_pos h.bounded rows
  obtain ⟨answer, cursor', db', hnext, hpaging, hstands, hcopied, hend, hread⟩ :=
    Cursor.next_turns (fun _ => Sheet.CopiedBut.turn) h.stands h.ready h.small h.registered h.shows hpages
      h.copied
  obtain ⟨hready, hsame⟩ := h.ready.pages hpaging
  refine ⟨answer, cursor', db', hnext, ?_, hend, hread⟩
  constructor
  case ready => exact hready
  case small => exact h.small.of_sameRows h.ready.coherent hsame
  case registered =>
    rw [hsame.tables.catalog]
    exact h.registered
  case shown => exact h.shown.of_sameRows hsame
  case bounded => exact h.bounded
  case inserted => exact h.inserted
  case stands => exact hstands
  case copied => exact hcopied
  case counted => exact h.counted

theorem fails_of_full (h : Copying sheets file cursor waiting n sheet db)
    (hfree : sheet.free? file.slotCount = none) (hlimit : UInt32.size ≤ sheet.pages + 1) (e : Fault) :
    CopyFails sheets file e := by
  have hslots : 0 < file.slotCount := file.slotCount_pos
  have hmany : 2147483647 < ((sheets file.id).rows file.slotCount).length := by
    have hcounted := h.counted
    obtain ⟨rows, rfl, rfl⟩ := h.inserted
    have hall := (Sheet.perm_insertAll hslots h.bounded rows).length_eq
    rw [Sheet.length_rows_of_full ((Sheet.free?_eq_none_iff _ _).mp hfree), List.length_append] at hall
    have hpages := Nat.le_mul_of_pos_right ((sheets file.id).insertAll file.slotCount rows).pages hslots
    have hsize : UInt32.size = 4294967296 := rfl
    omega
  have hall := Sheet.length_rows_first_le_copied hslots h.bounded (sheets file.id).pages
  exact ⟨Nat.lt_of_lt_of_le hmany hall, fun hcount => absurd hcount (Nat.not_le_of_lt hmany)⟩

theorem insert {t : Tuple} (h : Copying sheets file cursor (t.fields :: waiting) n sheet db)
    (hvalid : t.Valid) (hagrees : t.schema.Agrees file.schema) (txn : TransactionId) :
    (∃ db', Source.countStep (insertTuple txn file.id) t (n, db) = .ok () (n + 1, db') ∧
      Copying sheets file cursor waiting (n + 1) (sheet.insert file.slotCount t.fields) db') ∨
    ∃ e n' db', Source.countStep (insertTuple txn file.id) t (n, db) = .error e (n', db') ∧
      CopyFails sheets file e := by
  rcases h.ready.insert_cases h.small h.shown txn h.registered hvalid hagrees with
    ⟨db', hinsert, hready, hsmall, htables, hshown⟩ | ⟨e, db', hinsert, hfree, hlimit⟩
  · rw [Sheets.put_self, Sheets.put_put] at hshown
    have hcopied := h.copied.insert
    by_cases hfits : n + 1 ≤ 2147483647
    · refine Or.inl ⟨db', ?_, ?_⟩
      · simp only [Source.countStep, hinsert, if_pos hfits]
      constructor
      case ready => exact hready
      case small => exact hsmall
      case registered =>
        rw [htables.catalog]
        exact h.registered
      case shown => exact hshown
      case bounded => exact h.bounded
      case inserted =>
        obtain ⟨rows, rfl, rfl⟩ := h.inserted
        refine ⟨rows ++ [t.fields], List.length_append, ?_⟩
        rw [Sheet.insertAll_append]
        rfl
      case stands => exact h.stands
      case copied => exact hcopied
      case counted => exact hfits
    · refine Or.inr ⟨.violation .counterOverflow, n, db', ?_, ?_, fun _ => rfl⟩
      · simp only [Source.countStep, hinsert, if_neg hfits]
      · have hsum := congrArg Prod.fst hcopied
        have hmono : ((sheets file.id).copied file.slotCount cursor.nextPage).1 ≤ (sheets.copied file).1 :=
          Sheet.copied_fst_mono _ _ (Nat.le.intro h.stands.left)
        dsimp only at hsum
        omega
  · rw [Sheets.put_self] at hfree hlimit
    refine Or.inr ⟨e, n, db', ?_, h.fails_of_full hfree hlimit e⟩
    simp only [Source.countStep, hinsert]

end Copying

section
variable {sheets : Sheets} {file : TableFile}

theorem Copies.feed {s : (Lookahead (Option Cursor) × Nat) × Database} (h : Copies sheets file s)
    {schema : Schema} (hschema : schema.Agrees file.schema) (txn : TransactionId) :
    Sum.elim (CopyEnds sheets file) (Copies sheets file)
      ((Source.scan file schema).feed (Source.countStep (insertTuple txn file.id)) s) := by
  obtain ⟨⟨look, n⟩, db⟩ := s
  obtain ⟨cursor, sheet, rfl, h⟩ := h
  obtain ⟨answer, cursor', middle, hnext, hcopying, hend, hread⟩ := h.next
  cases answer with
  | none =>
    rw [Source.feed_of_end _ (Source.next_scan_of_end hnext)]
    obtain ⟨hlast, hnone⟩ := hend rfl
    have hcopied := hcopying.copied
    rw [hlast, hnone] at hcopied
    have htotal : sheets.copied file = (n, sheet) := hcopied
    have hends : CopyEnds sheets file
        (.ok () ((.opened (some cursor'), (sheets.copied file).1), middle)) := by
      apply CopyEnds.counted
      case fits =>
        rw [htotal]
        exact hcopying.counted
      case ready => exact hcopying.ready
      case small => exact hcopying.small
      case shown =>
        rw [htotal]
        exact hcopying.shown
    rwa [htotal] at hends
  | some t =>
    obtain ⟨hagrees, hholds⟩ := hread t rfl
    have hscan : (Source.scan file schema).next (.opened (some cursor), db) =
        .ok (some { t with schema }) (.opened (some cursor'), middle) :=
      Source.next_scan_of_some hnext (hschema.trans hagrees.symm)
    have hvalid : ({ t with schema } : Tuple).Valid := Tuple.valid_of_holds hholds hschema
    rcases Copying.insert (t := { t with schema }) hcopying hvalid hschema txn with
      ⟨db', hstep, hcopying'⟩ | ⟨e, n', db', hstep, hfails⟩
    · rw [Source.feed_of_ok hscan hstep]
      exact ⟨cursor', _, rfl, hcopying'⟩
    · rw [Source.feed_of_error hscan hstep]
      exact .failed hfails

end

namespace Database

end Database
end RowStore
