import RowStore.Database.Cursor
import RowStore.Proofs.Progress

/-!
# What scans deliver

A reader sees a tuple as an entry, which is its record and its fields. A cursor has entries ahead: of
the tuples that it has buffered and of the pages that it will visit. Each answer of a cursor is the
first entry ahead, so a scan that comes to its end delivers all entries of its table in order.
-/
namespace RowStore
open Relation

/-- What readers see of a tuple. -/
def Tuple.entry (t : Tuple) : Option RecordId × List Field := (t.record, t.fields)

/-- The entries of rows that stand in the slots of the page from `first` on. -/
def entries (id : PageId) (first : Nat) (rows : List (Option (List Field))) :
    List (Option RecordId × List Field) :=
  (rows.zipIdx first).filterMap fun (row, slot) =>
    row.map fun fields => (some ⟨id, UInt16.ofNat slot⟩, fields)

@[simp] theorem entries_none (id : PageId) (first : Nat) (rows : List (Option (List Field))) :
    entries id first (none :: rows) = entries id (first + 1) rows := rfl

@[simp] theorem entries_some (id : PageId) (first : Nat) (row : List Field)
    (rows : List (Option (List Field))) :
    entries id first (some row :: rows) =
      (some ⟨id, UInt16.ofNat first⟩, row) :: entries id (first + 1) rows := rfl

theorem mem_entries {id : PageId} {rows : List (Option (List Field))}
    (hlength : rows.length ≤ UInt16.size) {record : RecordId} {row : List Field} :
    (some record, row) ∈ entries id 0 rows ↔
      record.page = id ∧ rows[record.slot.toNat]? = some (some row) := by
  rw [entries, List.mem_filterMap]
  constructor
  · rintro ⟨⟨stored, slot⟩, hmem, hentry⟩
    rw [List.mem_zipIdx_iff_getElem?] at hmem
    obtain ⟨fields, rfl, heq⟩ := Option.map_eq_some_iff.mp hentry
    cases heq
    have hlt := (List.getElem?_eq_some_iff.mp hmem).1
    rw [UInt16.toNat_ofNat_of_lt' (Nat.lt_of_lt_of_le hlt hlength)]
    exact ⟨rfl, hmem⟩
  · rintro ⟨rfl, hrow⟩
    refine ⟨(some row, record.slot.toNat), List.mem_zipIdx_iff_getElem?.mpr hrow, ?_⟩
    simp

theorem entries_of_slots {id : PageId} {slots : List (Option Tuple)} {first : Nat}
    (h : ∀ (i : Nat) (t : Tuple), slots[i]? = some (some t) →
      t.record = some ⟨id, UInt16.ofNat (first + i)⟩) :
    (slots.filterMap fun slot => slot).map Tuple.entry =
      entries id first (slots.map (Option.map Tuple.fields)) := by
  induction slots generalizing first with
  | nil => rfl
  | cons stored slots ih =>
    have hnext (i : Nat) (t : Tuple) (hi : slots[i]? = some (some t)) :
        t.record = some ⟨id, UInt16.ofNat (first + 1 + i)⟩ := by
      rw [Nat.add_right_comm]
      exact h (i + 1) t hi
    have hrest := ih hnext
    cases stored with
    | none => simpa using hrest
    | some t =>
      have hrecord : t.record = some ⟨id, UInt16.ofNat first⟩ := h 0 t rfl
      simpa [Tuple.entry, hrecord] using hrest

theorem Page.Shaped.entries {page : Page} (h : page.Shaped) :
    page.tuples.map Tuple.entry = RowStore.entries page.id 0 page.rows := by
  apply entries_of_slots
  intro slot t hslot
  rw [Nat.zero_add]
  exact (h.stored slot t (Page.tuple?_eq_some_iff.mpr hslot)).2.2

namespace Database

/-- The entries that readers see on a page. -/
def entriesAt (db : Database) (file : TableFile) (n : PageNo) : List (Option RecordId × List Field) :=
  entries ⟨file.id, n⟩ 0 (db.rowsAt file n)

end Database

namespace Cursor
open Database

/-- The entries that the cursor has not delivered yet. -/
def ahead (cursor : Cursor) (db : Database) : List (Option RecordId × List Field) :=
  cursor.buffered.map Tuple.entry ++
    (List.range' cursor.nextPage cursor.pagesLeft).flatMap fun page =>
      db.entriesAt cursor.file (UInt32.ofNat page)

theorem ahead_of_sameRows {cursor : Cursor} {db db' : Database}
    (hfile : db.catalog.file cursor.file.id = .ok cursor.file) (h : SameRows db db') :
    cursor.ahead db' = cursor.ahead db := by
  simp only [ahead, entriesAt, h.rows cursor.file hfile]

theorem advance_spec {file : TableFile} {left page : Nat} {db db' : Database} (h : db.Coherent)
    (hfile : db.catalog.file file.id = .ok file) {answer : Option Tuple} {cursor : Cursor}
    (hadvance : advance file page left db = .ok answer (cursor, db')) :
    ReflTransGen Paging db db' ∧ cursor.file = file ∧
      (⟨file, page, left, []⟩ : Cursor).ahead db = (answer.map Tuple.entry).toList ++ cursor.ahead db' ∧
        (answer = none → cursor.ahead db' = []) := by
  induction left generalizing page db with
  | zero =>
    cases hadvance
    exact ⟨.refl, rfl, rfl, fun _ => rfl⟩
  | succ left ih =>
    rw [advance] at hadvance
    cases hfetch : fetch ⟨file.id, UInt32.ofNat page⟩ db with
    | error e middle =>
      rw [hfetch] at hadvance
      cases hadvance
    | ok frame middle =>
      rw [hfetch] at hadvance
      dsimp only at hadvance
      obtain ⟨hpages, _, home, hsound, hhome, hid, hrows⟩ := h.fetch_shows hfetch
      cases h.file_eq hfile hhome hid
      obtain ⟨hcoherent, hsame⟩ := h.pages hpages
      have hentries := hsound.wellFormed.shaped.entries
      rw [hsound.identified, hrows] at hentries
      have hahead : (⟨file, page, left + 1, []⟩ : Cursor).ahead db =
          frame.page.tuples.map Tuple.entry ++ (⟨file, page + 1, left, []⟩ : Cursor).ahead db := by
        rw [hentries, ahead, List.range'_succ, List.flatMap_cons]
        rfl
      have hmiddle : middle.catalog.file file.id = .ok file := by rwa [hsame.tables.catalog]
      rw [hahead]
      cases htuples : frame.page.tuples with
      | nil =>
        rw [htuples] at hadvance
        obtain ⟨hrest, hcursor, hfound, hend⟩ := ih hcoherent hmiddle hadvance
        refine ⟨hpages.trans hrest, hcursor, ?_, hend⟩
        rw [← hfound, ahead_of_sameRows hfile hsame]
        rfl
      | cons t ts =>
        rw [htuples] at hadvance
        cases hadvance
        refine ⟨hpages, rfl, ?_, fun hnone => by cases hnone⟩
        rw [ahead_of_sameRows hfile hsame]
        simp [ahead]

theorem next_spec {cursor cursor' : Cursor} {db db' : Database} (h : db.Coherent)
    (hfile : db.catalog.file cursor.file.id = .ok cursor.file) {answer : Option Tuple}
    (hnext : next (cursor, db) = .ok answer (cursor', db')) :
    ReflTransGen Paging db db' ∧ cursor'.file = cursor.file ∧
      cursor.ahead db = (answer.map Tuple.entry).toList ++ cursor'.ahead db' ∧
        (answer = none → cursor'.ahead db' = []) := by
  obtain ⟨file, page, left, buffered⟩ := cursor
  cases buffered with
  | nil => exact advance_spec h hfile hnext
  | cons t ts =>
    cases hnext
    exact ⟨.refl, rfl, rfl, fun hnone => by cases hnone⟩

/-- A scan takes tuples from the cursor to the end. -/
inductive Delivers : Cursor × Database → List Tuple → Cursor × Database → Prop
  | done {s s' : Cursor × Database} (h : next s = .ok none s') : Delivers s [] s'
  | more {s s' s'' : Cursor × Database} {t : Tuple} {ts : List Tuple}
      (h : next s = .ok (some t) s') (rest : Delivers s' ts s'') : Delivers s (t :: ts) s''

theorem Delivers.entries {s s' : Cursor × Database} {ts : List Tuple} (hscan : Delivers s ts s')
    (h : s.2.Coherent) (hfile : s.2.catalog.file s.1.file.id = .ok s.1.file) :
    ts.map Tuple.entry = s.1.ahead s.2 := by
  induction hscan with
  | done hnext =>
    obtain ⟨_, _, hahead, hend⟩ := next_spec h hfile hnext
    rw [hahead, hend rfl]
    rfl
  | more hnext _ ih =>
    obtain ⟨hpages, hcursor, hahead, _⟩ := next_spec h hfile hnext
    obtain ⟨hcoherent, hsame⟩ := h.pages hpages
    have hrest := ih hcoherent (by rwa [hcursor, hsame.tables.catalog])
    rw [hahead, List.map_cons, hrest]
    rfl

end Cursor

namespace Database

/-- The entries that a scan of the table delivers. -/
def scanned (db : Database) (table : TableId) : List (Option RecordId × List Field) :=
  match db.catalog.file table with
  | .ok file => (Cursor.start file db.volume).ahead db
  | .error _ => []

theorem Coherent.scanned_eq {db db' : Database} (h : db.Coherent) {table : TableId} {file : TableFile}
    (hfile : db.catalog.file table = .ok file) {ts : List Tuple} {cursor : Cursor}
    (hscan : Cursor.Delivers (Cursor.start file db.volume, db) ts (cursor, db')) :
    ts.map Tuple.entry = db.scanned table := by
  rw [scanned, hfile]
  exact hscan.entries h (h.registered hfile)

theorem Coherent.length_rowsAt {db : Database} (h : db.Coherent) {file : TableFile}
    (hfile : db.catalog.file file.id = .ok file) (n : PageNo) :
    (db.rowsAt file n).length = file.slotCount := by
  cases hcached : db.pool.page? ⟨file.id, n⟩ with
  | none =>
    rw [rowsAt_of_missing hcached]
    exact file.length_rowsOnDisk db.volume n
  | some page =>
    rw [rowsAt_of_cached hcached, Page.length_rows]
    exact (h.sound_of_cached hfile hcached).wellFormed.slots

theorem Coherent.mem_scanned {db : Database} (h : db.Coherent) (hsmall : db.Small)
    {record : RecordId} {file : TableFile} (hfile : db.catalog.file record.page.table = .ok file)
    (row : List Field) :
    (some record, row) ∈ db.scanned record.page.table ↔
      record.page.number.toNat < file.pageTotal db.volume ∧
        (db.rowsAt file record.page.number)[record.slot.toNat]? = some (some row) := by
  have hid := h.named _ _ hfile
  have hregistered := h.registered hfile
  have htotal := hsmall _ _ hfile
  have hentry (n : PageNo) : (some record, row) ∈ db.entriesAt file n ↔
      record.page = ⟨file.id, n⟩ ∧ (db.rowsAt file n)[record.slot.toNat]? = some (some row) := by
    apply mem_entries
    rw [h.length_rowsAt hregistered]
    exact file.slotCount_le
  simp only [scanned, hfile, Cursor.start, Cursor.ahead, List.map_nil, List.nil_append,
    List.mem_flatMap, hentry, List.mem_range'_1, TableFile.numPages_toNat htotal, Nat.zero_le,
    Nat.zero_add, true_and]
  constructor
  · rintro ⟨page, hpage, hplace, hrow⟩
    have hnumber : record.page.number = UInt32.ofNat page := by rw [hplace]
    rw [hnumber, UInt32.toNat_ofNat_of_lt' (Nat.lt_trans hpage htotal)]
    exact ⟨hpage, hrow⟩
  · rintro ⟨hn, hrow⟩
    refine ⟨record.page.number.toNat, hn, ?_, ?_⟩
    · rw [UInt32.ofNat_toNat, hid]
    · rwa [UInt32.ofNat_toNat]

end Database
end RowStore
