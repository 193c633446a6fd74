import RowStore.Proofs.Flushes
import RowStore.Proofs.TableScans

/-!
# Files that are opened again

After a flush the files have all that readers see, so a new database over the same files scans the
same tuples at the same places, with any capacity of its own. What a page is on disk depends on the
bytes of its file, the page size and the schema only.
-/
namespace RowStore
open Relation Database

namespace TableFile
variable {file other : TableFile} {volume volume' : Volume}

theorem pageTotal_of_bytes (hpages : other.pages = file.pages)
    (hbytes : volume'.bytes file.pages.name = volume.bytes file.pages.name) :
    other.pageTotal volume' = file.pageTotal volume := by
  rw [pageTotal, pageTotal, hpages, PageFile.pageTotal, PageFile.pageTotal, ← Contents.length_toBytes,
    ← Contents.length_toBytes]
  exact congrArg (fun bytes : Bytes => (bytes.length + (file.pages.pageSize - 1)) / file.pages.pageSize)
    hbytes

theorem rowsOnDisk_of_bytes (hpages : other.pages = file.pages) (hschema : other.schema = file.schema)
    (hbytes : volume'.bytes file.pages.name = volume.bytes file.pages.name) (n : PageNo) :
    other.rowsOnDisk volume' n = file.rowsOnDisk volume n := by
  have hid : other.id = file.id := by rw [id, id, hpages]
  rw [rowsOnDisk, rowsOnDisk, pageOnDisk, pageOnDisk, hid, hpages, hschema, PageFile.image_eq,
    PageFile.image_eq, hbytes]

end TableFile

namespace Cursor

theorem Stands.delivers {file : TableFile} {total : Nat} {cursor : Cursor}
    (hstands : cursor.Stands file total) {db : Database} (h : db.Ready)
    (hfile : db.catalog.file file.id = .ok file) (htotal : total ≤ file.pageTotal db.volume)
    (hsmall : file.pageTotal db.volume < UInt32.size) : ∃ ts last, Delivers (cursor, db) ts last := by
  generalize hentries : cursor.ahead db = es
  induction es generalizing cursor db with
  | nil =>
    obtain ⟨answer, cursor', db', hnext, -, -, -⟩ := next_ok hstands h hfile htotal hsmall
    obtain ⟨-, -, hahead, -⟩ := next_spec h.coherent (by rwa [hstands.home]) hnext
    cases answer with
    | none => exact ⟨[], _, .done hnext⟩
    | some t =>
      rw [hentries] at hahead
      cases hahead
  | cons entry es ih =>
    obtain ⟨answer, cursor', db', hnext, hstands', -, -⟩ := next_ok hstands h hfile htotal hsmall
    obtain ⟨hpages, -, hahead, -⟩ := next_spec h.coherent (by rwa [hstands.home]) hnext
    obtain ⟨hready, hsame⟩ := h.pages hpages
    have hpageTotal := hsame.pages file hfile
    cases answer with
    | none => exact ⟨[], _, .done hnext⟩
    | some t =>
      rw [hentries] at hahead
      obtain ⟨ts, last, hrest⟩ := ih hstands' hready (by rwa [hsame.tables.catalog])
        (by rwa [hpageTotal]) (by rwa [hpageTotal]) (List.cons.inj hahead).2.symm
      exact ⟨t :: ts, last, .more hnext hrest⟩

end Cursor

namespace Database

theorem Ready.scan_ok {db : Database} (h : db.Ready) (hsmall : db.Small) {table : TableId}
    {file : TableFile} (hfile : db.catalog.file table = .ok file) :
    ∃ ts last, Cursor.Delivers (Cursor.start file db.volume, db) ts last ∧
      ts.map Tuple.entry = db.scanned table := by
  have hstands := Cursor.stands_start file (file.numPages db.volume).toNat
  obtain ⟨ts, ⟨cursor, last⟩, hscan⟩ := hstands.delivers h (h.coherent.registered hfile)
    (file.numPages_toNat_le db.volume) (hsmall table file hfile)
  exact ⟨ts, (cursor, last), hscan, h.coherent.scanned_eq hfile hscan⟩

theorem scanned_of_sameRows {db db' : Database} (h : db.Coherent) (hsame : SameRows db db')
    (table : TableId) : db'.scanned table = db.scanned table := by
  rw [scanned, scanned, hsame.tables.catalog]
  cases hfile : db.catalog.file table with
  | error e => rfl
  | ok file =>
    have hregistered := h.registered hfile
    have hstart : Cursor.start file db'.volume = Cursor.start file db.volume := by
      rw [Cursor.start, Cursor.start, TableFile.numPages, TableFile.numPages,
        PageFile.pageCount_eq_ofNat, PageFile.pageCount_eq_ofNat]
      exact congrArg (fun pages => (⟨file, 0, (UInt32.ofNat pages).toNat, []⟩ : Cursor))
        (hsame.pages file hregistered)
    dsimp only
    rw [hstart]
    exact Cursor.ahead_of_sameRows hregistered hsame

/-- The other database is new and has opened files of this one, with their page sizes and schemas. -/
structure Reopens (db other : Database) : Prop where
  fresh : other.Fresh
  room : 0 < other.pool.capacity
  files : ∀ table file', other.catalog.file table = .ok file' → ∃ file,
    db.catalog.file table = .ok file ∧ file'.pages = file.pages ∧ file'.schema = file.schema ∧
      other.volume.bytes file.pages.name = db.volume.bytes file.pages.name

namespace Reopens
variable {db other : Database}

theorem rowsAt_eq (h : Reopens db other) (hdb : db.Coherent) (hclean : db.Clean) {table : TableId}
    {file file' : TableFile} (hfile : db.catalog.file table = .ok file)
    (hfile' : other.catalog.file table = .ok file') :
    file'.pageTotal other.volume = file.pageTotal db.volume ∧
      ∀ n, other.rowsAt file' n = db.rowsAt file n := by
  obtain ⟨found, hfound, hpages, hschema, hbytes⟩ := h.files table file' hfile'
  cases hfile.symm.trans hfound
  refine ⟨TableFile.pageTotal_of_bytes hpages hbytes, fun n => ?_⟩
  have hmissing : other.pool.page? ⟨file'.id, n⟩ = none := by
    rw [h.fresh.pool]
    rfl
  rw [rowsAt_of_missing hmissing, TableFile.rowsOnDisk_of_bytes hpages hschema hbytes,
    hdb.rowsAt_of_clean (hdb.registered hfile) fun page => hclean _ page]

theorem ready (h : Reopens db other) (hdb : db.Ready) (hclean : db.Clean) : other.Ready := by
  constructor
  case coherent => exact h.fresh.coherent
  case room => exact h.room
  case holds =>
    intro file' hfile' n hn row hrow
    obtain ⟨file, hfile, -, hschema, -⟩ := h.files _ file' hfile'
    obtain ⟨htotal, hrows⟩ := h.rowsAt_eq hdb.coherent hclean hfile hfile'
    rw [htotal] at hn
    rw [hrows] at hrow
    have hholds := hdb.holds file (hdb.coherent.registered hfile) n hn row hrow
    rwa [TableFile.Holds, hschema]

theorem small (h : Reopens db other) (hdb : db.Coherent) (hclean : db.Clean) (hsmall : db.Small) :
    other.Small := by
  intro table file' hfile'
  obtain ⟨file, hfile, -⟩ := h.files table file' hfile'
  rw [(h.rowsAt_eq hdb hclean hfile hfile').1]
  exact hsmall table file hfile

theorem scanned_eq (h : Reopens db other) (hdb : db.Coherent) (hclean : db.Clean) {table : TableId}
    {file file' : TableFile} (hfile : db.catalog.file table = .ok file)
    (hfile' : other.catalog.file table = .ok file') : other.scanned table = db.scanned table := by
  obtain ⟨htotal, hrows⟩ := h.rowsAt_eq hdb hclean hfile hfile'
  have hid : file'.id = file.id := by
    rw [h.fresh.named table file' hfile', hdb.named table file hfile]
  have hcount : file'.numPages other.volume = file.numPages db.volume := congrArg UInt32.ofNat htotal
  rw [scanned, scanned, hfile, hfile']
  simp only [Cursor.start, Cursor.ahead, entriesAt, hcount, hrows, hid]

end Reopens

/-- The two databases deliver the same tuples from their files, by records and fields. -/
def SameScans (a : Database) (file : TableFile) (b : Database) (other : TableFile) : Prop :=
  ∃ ts last ts' last', Cursor.Delivers (Cursor.start file a.volume, a) ts last ∧
    Cursor.Delivers (Cursor.start other b.volume, b) ts' last' ∧
      ts'.map Tuple.entry = ts.map Tuple.entry

theorem sameScans_of_scanned {a b : Database} (ha : a.Ready) (hsmall : a.Small) (hb : b.Ready)
    (hsmall' : b.Small) {table : TableId} {file other : TableFile} (hfile : a.catalog.file table = .ok file)
    (hother : b.catalog.file table = .ok other) (hscanned : b.scanned table = a.scanned table) :
    SameScans a file b other := by
  obtain ⟨ts, last, hscan, hts⟩ := ha.scan_ok hsmall hfile
  obtain ⟨ts', last', hscan', hts'⟩ := hb.scan_ok hsmall' hother
  exact ⟨ts, last, ts', last', hscan, hscan', hts'.trans (hscanned.trans hts.symm)⟩

theorem Fresh.opened_of_sameTables {start db : Database} (h : start.Fresh) (hsame : SameTables start db)
    (table : TableId) (file : TableFile) (hfile : db.catalog.file table = .ok file) :
    file.serial < db.traffic.length := by
  rw [hsame.files]
  exact h.opened table file (by rwa [← hsame.catalog])

/-- A flush writes every dirty page once and leaves nothing for a second one, and after it a new
database over the files scans what the old one scans. -/
theorem flush_reopen {start : Database} (h : start.Fresh) (hroom : 0 < start.pool.capacity)
    (hempty : ∀ file, start.catalog.file file.id = .ok file → start.volume.bytes file.pages.name = [])
    {calls : List Call} (hcalls : ∀ call ∈ calls, call.Plain) (hsmall : StaysSmall calls start) :
    let db := run calls start
    ∃ flushed, flushAll db = .ok () flushed ∧ Flushed db flushed ∧
      flushAll flushed = .ok () flushed ∧
      ∀ table file, db.catalog.file table = .ok file → SameScans db file flushed file ∧
        ∀ other file', Reopens flushed other → other.catalog.file table = .ok file' →
          SameScans flushed file other file' := by
  intro db
  obtain ⟨hready, hmatches⟩ := h.ready hroom hempty
  obtain ⟨hdb, htables, -⟩ := hready.simulated_run hcalls hsmall hmatches
  obtain ⟨flushed, hflush, hflushed, hready', hsame, -⟩ :=
    hdb.writeAll_flushes (h.opened_of_sameTables htables) fun id page hcached _ => mem_keys_of_cached hcached
  have hsmall' := hsmall.last.of_sameRows hdb.coherent hsame
  refine ⟨flushed, hflush, hflushed, hflushed.clean.writeAll_eq _, fun table file hfile => ?_⟩
  have hfile' : flushed.catalog.file table = .ok file := by rwa [hsame.tables.catalog]
  constructor
  · exact sameScans_of_scanned hdb hsmall.last hready' hsmall' hfile hfile'
      (scanned_of_sameRows hdb.coherent hsame table)
  · intro other opened hother hopened
    exact sameScans_of_scanned hready' hsmall' (hother.ready hready' hflushed.clean)
      (hother.small hready'.coherent hflushed.clean hsmall') hfile' hopened
      (hother.scanned_eq hready'.coherent hflushed.clean hfile' hopened)

/-- With one frame and pages of one slot, the first page has been written by an eviction and the second
is written by the flush; a database with three frames then finds both rows. -/
theorem flush_reopen_two_pages :
    let schema : Schema := ⟨[{ type := .integer, name := some "a" }], List.cons_ne_nil _ _⟩
    let file : TableFile := ⟨0, ⟨"t", 8⟩, schema, by decide, by decide⟩
    let start := withTable { pageSize := 8, poolPages := 1 } "t" schema
    let insert (value : Int32) : Call := .insert ⟨1⟩ (.file "t") ⟨schema, [.int value], none⟩
    let calls : List Call := [insert 3, insert 4]
    let db := run calls start
    let flushed := after flushAll db
    let other := after (createTable "./t" "again" schema "")
      (onVolume { pageSize := 8, poolPages := 3 } flushed.volume)
    start.Fresh ∧ 0 < start.pool.capacity ∧
      (∀ file, start.catalog.file file.id = .ok file → start.volume.bytes file.pages.name = []) ∧
      (∀ call ∈ calls, call.Plain) ∧ StaysSmall calls start ∧ db.catalog.file file.id = .ok file ∧
      other.catalog.file file.id = .ok file ∧ db.dirtyPages file = [⟨file.id, 1⟩] ∧
      db.scanned file.id = [(some ⟨⟨file.id, 0⟩, 0⟩, [.int 3]), (some ⟨⟨file.id, 1⟩, 0⟩, [.int 4])] ∧
      Reopens flushed other ∧ flushAll db = .ok () flushed ∧ Flushed db flushed ∧
      flushAll flushed = .ok () flushed ∧ SameScans db file flushed file ∧
      SameScans flushed file other file := by
  intro schema file start insert calls db flushed other
  have hfresh : start.Fresh := fresh_withTable _ _ _
  have hroom : 0 < start.pool.capacity := by decide +kernel
  have hempty (file : TableFile) (_ : start.catalog.file file.id = .ok file) :
      start.volume.bytes file.pages.name = [] := bytes_withTable _ _ _ _
  have hcalls : ∀ call ∈ calls, call.Plain := by
    have hvalid (value : Int32) : (⟨schema, [.int value], none⟩ : Tuple).Valid := by
      simp [Tuple.Valid, schema, Schema.types, Field.fits]
    simp [calls, insert, Call.Plain, hvalid]
  have hsmall : StaysSmall calls start := by decide +kernel
  have hfile : db.catalog.file file.id = .ok file := by decide +kernel
  have hopened : other.catalog.file file.id = .ok file := by decide +kernel
  have hother : Reopens flushed other := by
    refine ⟨(fresh_onVolume _ _).createTable _ _ _ _, by decide +kernel, fun table file' hfile' => ?_⟩
    have hkeys : other.catalog.tables.keys = [file.id] := by decide +kernel
    have htable : table = file.id := by
      have hmem := Catalog.mem_keys_of_file hfile'
      rwa [hkeys, List.mem_singleton] at hmem
    subst htable
    cases hopened.symm.trans hfile'
    exact ⟨file, by decide +kernel, rfl, rfl, by decide +kernel⟩
  obtain ⟨db', hflush, hflushed, hagain, hscans⟩ := flush_reopen hfresh hroom hempty hcalls hsmall
  have hleaves : flushed = db' := after_of_ok hflush
  subst hleaves
  obtain ⟨hbefore, hafter⟩ := hscans file.id file hfile
  exact ⟨hfresh, hroom, hempty, hcalls, hsmall, hfile, hopened, by decide +kernel, by decide +kernel,
    hother, hflush, hflushed, hagain, hbefore, hafter other file hother hopened⟩

end Database
end RowStore
