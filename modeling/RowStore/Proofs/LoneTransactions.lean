import RowStore.Proofs.Completions
import RowStore.Proofs.DirtyMarks
import RowStore.Proofs.Evictions
import RowStore.Proofs.PageVisits
import RowStore.Proofs.RegularStates

/-!
# Transactions that run alone

A transaction that starts where no page is dirty, and runs alone while its dirty pages stay in the
pool, writes nothing but empty pages behind the files. So what is on disk are the tables of the start:
an abort drops the changed pages and shows them again, and a commit writes the changed pages to disk
unless a row does not fit its columns, as it may be if the tuple was read from bytes.
-/
namespace RowStore
open Relation Database

namespace Call

/-- The call is a fetch, or it inserts or deletes a tuple for the transaction. -/
def By (txn : TransactionId) : Call → Prop
  | .fetch _ => True
  | .insert other _ _ | .delete other _ => other = txn
  | .update _ _ _ | .flushPage _ | .flushTransaction _ | .flushAll | .flushList _ | .discard _
  | .complete _ _ => False

/-- Every dirty page stays in the frame that it is in. -/
def KeepsDirty (call : Call) (db : Database) : Prop :=
  ∀ entry ∈ db.pool.frames.entries, entry.2.page.isDirty = true →
    ((call.leaves db).pool.frames.get? entry.1).map Frame.serial = some entry.2.serial

instance (call : Call) (db : Database) : Decidable (call.KeepsDirty db) :=
  inferInstanceAs (Decidable (∀ entry ∈ _, _ → _))

theorem By.edited {txn : TransactionId} {call : Call} (h : call.By txn) {db : Database}
    (hdb : db.Coherent) (hsmall : db.Small) : Edited txn db (call.leaves db) := by
  cases call with
  | fetch id =>
    rw [leaves, perform, after_ignored]
    exact (visited_fetch hdb.inOrder id).edited
  | insert other table t =>
    cases h
    exact edited_insertTuple hdb hsmall _ table t
  | delete other t =>
    cases h
    exact edited_deleteTuple hdb _ t
  | update _ _ _ | flushPage _ | flushTransaction _ | flushAll | flushList _ | discard _
  | complete _ _ => exact h.elim

end Call

namespace Database

/-- No dirty page leaves the pool during the calls. -/
def KeepDirty : List Call → Database → Prop
  | [], _ => True
  | call :: calls, db => call.KeepsDirty db ∧ KeepDirty calls (call.leaves db)

instance decidableKeepDirty : (calls : List Call) → (db : Database) → Decidable (KeepDirty calls db)
  | [], _ => inferInstanceAs (Decidable True)
  | call :: calls, db =>
    have := decidableKeepDirty calls (call.leaves db)
    inferInstanceAs (Decidable (_ ∧ _))

/-- Only the transaction has dirty pages, and on disk is what readers saw in the base. -/
structure Alone (base : Database) (txn : TransactionId) (db : Database) : Prop where
  tables : SameTables base db
  marked : ∀ id page, db.pool.page? id = some page → page.isDirty = true → page.dirtiedBy = some txn
  pages : ∀ file, base.catalog.file file.id = .ok file →
    file.pageTotal base.volume ≤ file.pageTotal db.volume
  disk : ∀ file, base.catalog.file file.id = .ok file → ∀ n,
    file.rowsOnDisk db.volume n = base.rowsAt file n

variable {base db : Database} {txn : TransactionId}

theorem alone_self (h : base.Coherent) (hclean : base.Clean) (txn : TransactionId) :
    Alone base txn base := by
  constructor
  case tables => exact .refl base
  case marked =>
    intro id page hcached hdirty
    rw [hclean id page hcached] at hdirty
    cases hdirty
  case pages => exact fun _ _ => Nat.le_refl _
  case disk =>
    intro file hfile n
    exact (h.rowsAt_of_clean hfile fun page => hclean _ page).symm

theorem serial_replacing (db : Database) (id : PageId) (page : Page) (other : PageId) :
    ((db.replacing id page).pool.frames.get? other).map Frame.serial =
      (db.pool.frames.get? other).map Frame.serial := by
  change ((db.pool.frames.modify id _).get? other).map Frame.serial = _
  rw [Assoc.get?_modify]
  split
  · rw [Option.map_map]
    rfl
  · rfl

theorem Alone.visited (h : Alone base txn db) {db' : Database} (hvisit : Visited db db')
    (hdisk : Lengthened db db') : Alone base txn db' := by
  have hfiles {file : TableFile} (hfile : base.catalog.file file.id = .ok file) :
      db.catalog.file file.id = .ok file := by rwa [h.tables.catalog]
  constructor
  case tables => exact h.tables.trans hvisit.tables
  case marked =>
    intro id page hcached hdirty
    obtain ⟨frame, hframe, rfl⟩ := Option.map_eq_some_iff.mp hcached
    rcases hvisit.frames id frame hframe with hold | ⟨_, hclean⟩
    · apply h.marked id _ _ hdirty
      rw [Pool.page?, hold, Option.map_some]
    · rw [hdirty] at hclean
      cases hclean
  case pages =>
    intro file hfile
    exact Nat.le_trans (h.pages file hfile) (hdisk file (hfiles hfile)).1
  case disk =>
    intro file hfile n
    exact ((hdisk file (hfiles hfile)).2 n).trans (h.disk file hfile n)

theorem Alone.replacing (h : Alone base txn db) {id : PageId} {old page : Page}
    (hcached : db.pool.page? id = some old) (hmark : page.dirtiedBy = some txn) :
    Alone base txn (db.replacing id page) := by
  refine ⟨h.tables.trans ⟨rfl, rfl, rfl⟩, fun other found hfound hdirty => ?_, h.pages, h.disk⟩
  rw [page?_replacing hcached] at hfound
  split at hfound
  · cases hfound
    exact hmark
  · exact h.marked other found hfound hdirty

theorem Alone.edited (h : Alone base txn db) {db' : Database} (hedit : Edited txn db db')
    (hkept : ∀ id frame, db.pool.frames.get? id = some frame → frame.page.isDirty = true →
      (db'.pool.frames.get? id).map Frame.serial = some frame.serial) : Alone base txn db' := by
  obtain ⟨middle, hvisit, hlast⟩ := hedit
  have hserials (id : PageId) : (db'.pool.frames.get? id).map Frame.serial =
      (middle.pool.frames.get? id).map Frame.serial := by
    rcases hlast with rfl | ⟨other, _, page, _, _, rfl⟩
    · rfl
    · exact serial_replacing middle other page id
  have hdisk : Lengthened db middle := by
    rcases hvisit.disk with hdisk | ⟨id, frame, hframe, hdirty, hlost⟩
    · exact hdisk
    · have hserial := hkept id frame hframe hdirty
      rw [hserials] at hserial
      obtain ⟨other, hother, heq⟩ := Option.map_eq_some_iff.mp hserial
      exact absurd heq (hlost other hother)
  have hmiddle := h.visited hvisit hdisk
  rcases hlast with rfl | ⟨id, old, page, hcached, hmark, rfl⟩
  · exact hmiddle
  · exact hmiddle.replacing hcached hmark

theorem Alone.run {own : List Call} (hown : ∀ call ∈ own, call.By txn)
    (hbuilt : ∀ call ∈ own, call.EditsTuples) (h : Alone base txn db) (hdb : db.Coherent)
    (hsmall : StaysSmall own db) (hkept : KeepDirty own db) : Alone base txn (RowStore.run own db) := by
  induction own generalizing db with
  | nil => exact h
  | cons call own ih =>
    have hcall := hown call List.mem_cons_self
    have hsteps := Call.leaves_steps (hbuilt call List.mem_cons_self) hdb (call.intoSmall_of_small hsmall.1)
    apply ih (fun other hmem => hown other (List.mem_cons_of_mem _ hmem))
      (fun other hmem => hbuilt other (List.mem_cons_of_mem _ hmem)) _ (hdb.steps hsteps) hsmall.2 hkept.2
    apply h.edited (hcall.edited hdb hsmall.1)
    intro id frame hframe hdirty
    exact hkept.1 (id, frame) (Assoc.mem_entries_of_get? hframe) hdirty

/-- Readers see no rows behind the last page. -/
theorem Coherent.rowsAt_behind (h : db.Coherent) {file : TableFile}
    (hfile : db.catalog.file file.id = .ok file) {n : PageNo}
    (hn : file.pageTotal db.volume ≤ n.toNat) :
    db.rowsAt file n = List.replicate file.slotCount none := by
  cases hcached : db.pool.page? ⟨file.id, n⟩ with
  | none => rw [rowsAt_of_missing hcached, TableFile.rowsOnDisk_behind hn]
  | some page => exact absurd (h.sound_of_cached hfile hcached).counted (Nat.not_lt_of_le hn)

/-- All rows fit, since there are none behind the last page. -/
theorem RowsFit.holds_rowsAt (h : db.RowsFit) (hdb : db.Coherent) {file : TableFile}
    (hfile : db.catalog.file file.id = .ok file) {n : PageNo} {row : List Field}
    (hrow : some row ∈ db.rowsAt file n) : file.Holds row := by
  by_cases hn : n.toNat < file.pageTotal db.volume
  · exact h file hfile n hn row hrow
  · rw [hdb.rowsAt_behind hfile (Nat.le_of_not_lt hn)] at hrow
    cases List.eq_of_mem_replicate hrow

/-- The rows of the base, and empty pages behind them. -/
structure Restored (base db : Database) : Prop where
  coherent : db.Coherent
  tables : SameTables base db
  pages : ∀ file, base.catalog.file file.id = .ok file →
    file.pageTotal base.volume ≤ file.pageTotal db.volume
  rows : ∀ file, base.catalog.file file.id = .ok file → ∀ n, db.rowsAt file n = base.rowsAt file n

theorem Alone.abort (h : Alone base txn db) (hdb : db.Coherent) :
    ∃ aborted, complete txn false db = .ok () aborted ∧ aborted.volume = db.volume ∧
      Restored base aborted := by
  refine ⟨_, complete_abort txn db, (foldl_without_volume _ db).1, ?_⟩
  generalize hdropped : ((db.pool.dirtiedBy txn).map fun entry => entry.2.page.id).foldl without db = aborted
  have hcoherent : aborted.Coherent := by
    have hsteps : ReflTransGen (Step fun _ => False) db aborted := hdropped ▸ foldl_without_steps _ db
    exact hdb.steps hsteps
  have hvolume : aborted.volume = db.volume := hdropped ▸ (foldl_without_volume _ db).1
  have htables : SameTables base aborted :=
    h.tables.trans (hdropped ▸ (shrinks_foldl_without _ db).1)
  have hclean : aborted.Clean := by
    intro id page hcached
    rw [← hdropped, foldl_without_page?] at hcached
    split at hcached
    · cases hcached
    · next hout =>
      cases hdirty : page.isDirty with
      | false => rfl
      | true => exact absurd (hdb.mem_dropped hcached (h.marked id page hcached hdirty)) hout
  have hrows (file : TableFile) (hfile : base.catalog.file file.id = .ok file) (n : PageNo) :
      aborted.rowsAt file n = base.rowsAt file n := by
    have hfile' : aborted.catalog.file file.id = .ok file := by rwa [htables.catalog]
    rw [hcoherent.rowsAt_of_clean hfile' fun page => hclean _ page, hvolume, h.disk file hfile]
  constructor
  case coherent => exact hcoherent
  case tables => exact htables
  case pages =>
    intro file hfile
    rw [hvolume]
    exact h.pages file hfile
  case rows => exact hrows

namespace Restored

theorem ready (h : Restored base db) (hbase : base.Ready) : db.Ready := by
  refine ⟨h.coherent, h.tables.capacity ▸ hbase.room, fun file hfile n _ row hrow => ?_⟩
  rw [h.tables.catalog] at hfile
  rw [h.rows file hfile] at hrow
  exact RowsFit.holds_rowsAt hbase.holds hbase.coherent hfile hrow

theorem shown (h : Restored base db) (hbase : base.Coherent) (hsmall : db.Small) {sheets : Sheets}
    (hm : Matches base sheets) (pages : TableId → Nat)
    (hpages : ∀ file, base.catalog.file file.id = .ok file → pages file.id = file.pageTotal db.volume) :
    Matches db fun table => { sheets table with pages := pages table } := by
  intro file hfile
  have htotal := hsmall _ _ hfile
  rw [h.tables.catalog] at hfile
  refine ⟨hpages file hfile, fun page slot => ?_⟩
  change (sheets file.id).cells.get? (page, slot) =
    if page < pages file.id then (db.rowsAt file (UInt32.ofNat page))[slot]?.join else none
  rw [(hm file hfile).cells, h.rows file hfile, hpages file hfile, (hm file hfile).pages]
  have hmore := h.pages file hfile
  by_cases hold : page < file.pageTotal base.volume
  · rw [if_pos hold, if_pos (Nat.lt_of_lt_of_le hold hmore)]
  · rw [if_neg hold]
    by_cases hnew : page < file.pageTotal db.volume
    · have hn : (UInt32.ofNat page).toNat = page := UInt32.toNat_ofNat_of_lt' (by omega)
      rw [if_pos hnew, hbase.rowsAt_behind hfile (by omega), List.getElem?_replicate]
      split <;> rfl
    · rw [if_neg hnew]

theorem entries_replicate (id : PageId) (first count : Nat) :
    entries id first (List.replicate count none) = [] := by
  induction count generalizing first with
  | zero => rfl
  | succ count ih =>
    rw [List.replicate_succ, entries_none]
    exact ih (first + 1)

theorem scanned_eq (h : Restored base db) (hbase : base.Coherent) (hsmall : db.Small) {table : TableId}
    {file : TableFile} (hfile : base.catalog.file table = .ok file) :
    db.scanned table = base.scanned table := by
  have hregistered := hbase.registered hfile
  have hfile' : db.catalog.file table = .ok file := by rwa [h.tables.catalog]
  have htotal := hsmall table file hfile'
  obtain ⟨more, hmore⟩ := Nat.le.dest (h.pages file hregistered)
  have hbaseTotal : file.pageTotal base.volume < UInt32.size := by omega
  have hempty : ((List.range' (0 + file.pageTotal base.volume) more).flatMap fun page =>
      base.entriesAt file (UInt32.ofNat page)) = [] := by
    rw [List.flatMap_eq_nil_iff]
    intro page hpage
    rw [List.mem_range'_1] at hpage
    have hn : (UInt32.ofNat page).toNat = page := UInt32.toNat_ofNat_of_lt' (by omega)
    rw [entriesAt, hbase.rowsAt_behind hregistered (by omega), entries_replicate]
  rw [scanned, scanned, hfile, hfile']
  simp only [Cursor.start, Cursor.ahead, List.map_nil, List.nil_append, TableFile.numPages_toNat htotal,
    TableFile.numPages_toNat hbaseTotal, ← hmore, ← List.range'_append_1, List.flatMap_append]
  have hentries (n : PageNo) : db.entriesAt file n = base.entriesAt file n := by
    rw [entriesAt, entriesAt, h.rows file hregistered]
  simp only [hentries, hempty, List.append_nil]

theorem tuples_behind (h : Restored base db) (hbase : base.Coherent) (hsmall : db.Small) {file : TableFile}
    (hfile : base.catalog.file file.id = .ok file) {n : PageNo}
    (hold : file.pageTotal base.volume ≤ n.toNat) (hnew : n.toNat < file.pageTotal db.volume) :
    ∃ page, db.page? ⟨file.id, n⟩ = some page ∧ page.tuples = [] := by
  have hregistered : db.catalog.file file.id = .ok file := by rwa [h.tables.catalog]
  obtain ⟨page, hpage, _, hformed, hrows⟩ :=
    h.coherent.page?_eq_some hregistered (hsmall _ _ hregistered) hnew
  have hentries := hformed.shaped.entries
  rw [hrows, h.rows file hfile, hbase.rowsAt_behind hfile hold, entries_replicate] at hentries
  exact ⟨page, hpage, List.map_eq_nil_iff.mp hentries⟩

end Restored

/-- A flush of a pool with no frames has nothing to write. -/
theorem Coherent.writeAll_flushes (h : db.Coherent) (hfits : db.RowsFit)
    (hopened : ∀ table file, db.catalog.file table = .ok file → file.serial < db.traffic.length)
    {ids : List PageId}
    (hids : ∀ id page, db.pool.page? id = some page → page.isDirty = true → id ∈ ids) :
    ∃ db', writeAll ids db = .ok () db' ∧ Flushed db db' ∧ db'.Coherent ∧ SameRows db db' ∧
      ∀ file, db.catalog.file file.id = .ok file → ∀ n,
        file.rowsOnDisk db'.volume n = db.rowsAt file n := by
  rcases Nat.eq_zero_or_pos db.pool.capacity with hnone | hroom
  · have hmissing := h.inOrder.page?_of_no_frames hnone
    have hclean : db.Clean := fun id page hcached => by
      rw [hmissing id] at hcached
      cases hcached
    refine ⟨db, hclean.writeAll_eq ids, hclean.flushed, h, .refl db, fun file _ n => ?_⟩
    exact (rowsAt_of_missing (hmissing _)).symm
  · obtain ⟨db', hwrite, hflushed, hready, hsame, hdisk⟩ :=
      Ready.writeAll_flushes ⟨h, hroom, hfits⟩ hopened hids
    exact ⟨db', hwrite, hflushed, hready.coherent, hsame, hdisk⟩

theorem Alone.commit (h : Alone base txn db) (hdb : db.Coherent) (hfits : db.RowsFit) (hsmall : db.Small)
    (hopened : ∀ table file, db.catalog.file table = .ok file → file.serial < db.traffic.length) :
    ∃ committed, complete txn true db = .ok () committed ∧ Flushed db committed ∧ committed.Coherent ∧
      SameRows db committed ∧ ∀ table file, db.catalog.file table = .ok file → ∀ n : PageNo,
        n < file.numPages committed.volume → ∃ stored seen,
          committed.pageOnDisk? ⟨table, n⟩ = some stored ∧ db.page? ⟨table, n⟩ = some seen ∧
            stored.SameContents seen := by
  have hmarked (id : PageId) (page : Page) (hcached : db.pool.page? id = some page)
      (hdirty : page.isDirty = true) : id ∈ (db.pool.dirtiedBy txn).map Prod.fst :=
    (mem_dirtiedBy_iff hdb.inOrder txn id).mpr ⟨page, hcached, h.marked id page hcached hdirty⟩
  obtain ⟨committed, hcommit, hflushed, hcoherent, hsame, hdisk⟩ :=
    hdb.writeAll_flushes hfits hopened hmarked
  refine ⟨committed, hcommit, hflushed, hcoherent, hsame, fun table file hfile n hn => ?_⟩
  have hid := hdb.named table file hfile
  have hregistered := hdb.registered hfile
  have htotal := hsame.pages file hregistered
  rw [UInt32.lt_iff_toNat_lt, TableFile.numPages_toNat (htotal ▸ hsmall table file hfile), htotal] at hn
  obtain ⟨seen, hseen, hseenId, hseenFormed, hseenRows⟩ :=
    hdb.page?_eq_some hregistered (hsmall table file hfile) hn
  obtain ⟨stored, hstored, hstoredId, _, hformed, hrows⟩ := file.pageOnDisk_eq_ok committed.volume n
  have hcheck : file.checkPage committed.volume ⟨file.id, n⟩ = .ok () :=
    TableFile.checkPage_of_counted (htotal ▸ hsmall table file hfile) (htotal ▸ hn)
  rw [← hid]
  refine ⟨stored, seen, ?_, hseen, hformed.sameContents hseenFormed (hstoredId.trans hseenId.symm) ?_⟩
  · have hfile' : committed.catalog.file file.id = .ok file := by rwa [hsame.tables.catalog]
    exact pageOnDisk?_of_readPage hfile' (readPage_of_counted hcheck hstored)
  · rw [hrows, hdisk file hregistered, hseenRows]

/-- A commit that returns has written every page that is dirty, so the rows of these pages fit, and the
others are rows of the base. -/
theorem Alone.rowsFit_of_commit (h : Alone base txn db) (hbase : base.Coherent) (hfits : base.RowsFit)
    (hdb : db.Coherent) {committed : Database} (hcommit : complete txn true db = .ok () committed) : db.RowsFit := by
  intro file hfile n _ row hrow
  have hfile' : base.catalog.file file.id = .ok file := by rwa [← h.tables.catalog]
  have hwritten : Committed txn db committed := committed_of_writeAll hdb.orderly (.refl _) hcommit
  cases hcached : db.pool.page? ⟨file.id, n⟩ with
  | none =>
    rw [rowsAt_of_missing hcached, h.disk file hfile'] at hrow
    exact hfits.holds_rowsAt hbase hfile' hrow
  | some page =>
    have hsound := hdb.sound_of_cached hfile hcached
    rw [rowsAt_of_cached hcached] at hrow
    cases hdirty : page.isDirty with
    | false =>
      rw [← hsound.clean hdirty, h.disk file hfile'] at hrow
      exact hfits.holds_rowsAt hbase hfile' hrow
    | true =>
      obtain ⟨_, image, _, himage, _⟩ := hwritten.images _ page hcached (h.marked _ page hcached hdirty)
      have hshaped := hsound.wellFormed.shaped
      have hagrees : page.schema.Agrees file.schema := congrArg Schema.types hsound.wellFormed.schema
      exact (hshaped.valid_iff hagrees).mp (hshaped.toImage_iff.mp ⟨image, himage⟩) row hrow

/-- A transaction that starts without dirty pages and runs alone, while no dirty page leaves the pool,
is undone by an abort. A commit returns exactly if the rows that readers see fit their columns, and then
the transaction is on disk. To be read through the pool, the tables need a frame. -/
theorem lone_transaction (h : base.Regular) (hfits : base.RowsFit) (hclean : base.Clean) {own : List Call}
    (hown : ∀ call ∈ own, call.By txn) (hbuilt : ∀ call ∈ own, call.EditsTuples)
    (hsmall : StaysSmall own base) (hkept : KeepDirty own base) :
    let db := run own base
    let before := base.sheets
    let visible := db.sheets
    let restored : Sheets := fun table => { before table with pages := (visible table).pages }
    (∃ aborted, complete txn false db = .ok () aborted ∧ Matches aborted restored ∧
      (∀ table file, base.catalog.file table = .ok file → ∀ n : PageNo,
        (before table).pages ≤ n.toNat → n.toNat < (visible table).pages →
          ∃ page, aborted.page? ⟨table, n⟩ = some page ∧ page.tuples = []) ∧
      (0 < base.pool.capacity → LooksLike aborted restored ∧
        ∀ table file, base.catalog.file table = .ok file → SameScans base file aborted file)) ∧
      ((∃ committed, complete txn true db = .ok () committed) ↔ db.RowsFit) ∧
      ∀ committed, complete txn true db = .ok () committed → Flushed db committed ∧
        Matches committed visible ∧ (0 < base.pool.capacity → LooksLike committed visible) ∧
        ∀ table file, base.catalog.file table = .ok file → ∀ n : PageNo,
          n < file.numPages committed.volume → ∃ stored seen,
            committed.pageOnDisk? ⟨table, n⟩ = some stored ∧ db.page? ⟨table, n⟩ = some seen ∧
              stored.SameContents seen := by
  intro db before visible restored
  have hbase : base.Coherent := h.coherent
  have hregular : db.Regular := h.run hbuilt hsmall
  have hdb := hregular.coherent
  have hbefore : Matches base before := hbase.shows_sheets
  have hvisible : Matches db visible := hdb.shows_sheets
  have halone : Alone base txn db := (alone_self hbase hclean txn).run hown hbuilt hbase hsmall hkept
  have hcommits (hrows : db.RowsFit) := halone.commit hdb hrows hsmall.last hregular.opened
  refine ⟨?_, ⟨fun ⟨_, hcommit⟩ => halone.rowsFit_of_commit hbase hfits hdb hcommit, fun hrows => ?_⟩, ?_⟩
  · obtain ⟨aborted, habort, hvolume, hrestored⟩ := halone.abort hdb
    have hsmallAborted : aborted.Small :=
      hsmall.last.of_pageTotal (hrestored.tables.catalog.trans halone.tables.catalog.symm)
        fun _ _ _ => by rw [hvolume]
    have hpages (file : TableFile) (hfile : base.catalog.file file.id = .ok file) :
        (visible file.id).pages = file.pageTotal aborted.volume := by
      rw [hvolume]
      exact (hvisible file (by rwa [halone.tables.catalog])).pages
    have hshown : Matches aborted restored :=
      hrestored.shown hbase hsmallAborted hbefore (fun table => (visible table).pages) hpages
    refine ⟨aborted, habort, hshown, fun table file hfile n hold hnew => ?_, fun hroom => ?_⟩
    · have hregistered := hbase.registered hfile
      rw [← hbase.named table file hfile] at hold hnew ⊢
      rw [(hbefore file hregistered).pages] at hold
      rw [hpages file hregistered] at hnew
      exact hrestored.tuples_behind hbase hsmallAborted hregistered hold hnew
    · have hready := h.ready hroom hfits
      have hready' := hrestored.ready hready
      refine ⟨hready'.looksLike hsmallAborted hshown, fun table file hfile => ?_⟩
      exact sameScans_of_scanned hready hsmall.first hready' hsmallAborted hfile
        (by rwa [hrestored.tables.catalog]) (hrestored.scanned_eq hbase hsmallAborted hfile)
  · obtain ⟨committed, hcommit, -⟩ := hcommits hrows
    exact ⟨committed, hcommit⟩
  · intro committed hcommit
    have hrows := halone.rowsFit_of_commit hbase hfits hdb hcommit
    obtain ⟨again, hagain, hflushed, hcoherent, hsame, hdisk⟩ := hcommits hrows
    cases hcommit.symm.trans hagain
    have hshown := hvisible.of_sameRows hsame
    refine ⟨hflushed, hshown, fun hroom => ?_, fun table file hfile => ?_⟩
    · have hready := hregular.ready (halone.tables.capacity ▸ hroom) hrows
      exact (hready.of_sameRows hcoherent hsame).looksLike (hsmall.last.of_sameRows hdb hsame) hshown
    · exact hdisk table file (by rwa [halone.tables.catalog])

/-- With two frames and pages of two slots, the transaction fills the last page, appends another one,
for which the clean first page is evicted, and deletes a row. -/
theorem lone_transaction_three_pages :
    let schema : Schema := ⟨[{ type := .integer, name := some "a" }], List.cons_ne_nil _ _⟩
    let file : TableFile := ⟨0, ⟨"t", 9⟩, schema, by decide, by decide⟩
    let insert (txn : TransactionId) (value : Int32) : Call :=
      .insert txn (.file "t") ⟨schema, [.int value], none⟩
    let start := withTable { pageSize := 9, poolPages := 2 } "t" schema
    let calls : List Call := [insert ⟨1⟩ 1, insert ⟨1⟩ 2, insert ⟨1⟩ 3, .complete ⟨1⟩ true]
    let base := run calls start
    let own : List Call := [insert ⟨2⟩ 4, insert ⟨2⟩ 5, .fetch ⟨.file "t", 7⟩,
      .delete ⟨2⟩ ⟨schema, [], some ⟨⟨.file "t", 1⟩, 0⟩⟩]
    let db := run own base
    base.Regular ∧ base.RowsFit ∧ base.Clean ∧ (∀ call ∈ own, call.By ⟨2⟩) ∧
      (∀ call ∈ own, call.EditsTuples) ∧ StaysSmall own base ∧ KeepDirty own base ∧
      0 < base.pool.capacity ∧ base.catalog.file file.id = .ok file ∧
      db.pool.cachedPages = [⟨.file "t", 1⟩, ⟨.file "t", 2⟩] ∧
      base.sheets file.id = ⟨2, ⟨[((0, 0), [.int 1]), ((0, 1), [.int 2]), ((1, 0), [.int 3])]⟩⟩ ∧
      db.sheets file.id = ⟨3, ⟨[((0, 0), [.int 1]), ((0, 1), [.int 2]), ((1, 1), [.int 4]),
        ((2, 0), [.int 5])]⟩⟩ ∧ db.RowsFit ∧
      (∃ aborted, complete ⟨2⟩ false db = .ok () aborted ∧ SameScans base file aborted file) ∧
      ∃ committed, complete ⟨2⟩ true db = .ok () committed ∧ LooksLike committed db.sheets := by
  intro schema file insert start calls base own db
  have hvalid (value : Int32) : (⟨schema, [.int value], none⟩ : Tuple).Valid := by
    simp [Tuple.Valid, schema, Schema.types, Field.fits]
  have hcalls : ∀ call ∈ calls, call.Plain := by
    simp [calls, insert, Call.Plain, hvalid]
  have hstays : StaysSmall calls start := by decide +kernel
  have hbase : run calls start = base := rfl
  obtain ⟨hregular, hroom, -, hfits, -⟩ := regular_withTable (by decide) "t" schema hcalls hstays hbase
  have hclean : base.Clean := by
    have hentries : ∀ entry ∈ base.pool.frames.entries, entry.2.page.isDirty = false := by decide +kernel
    intro id page hcached
    obtain ⟨frame, hframe, rfl⟩ := Option.map_eq_some_iff.mp hcached
    exact hentries _ (Assoc.mem_entries_of_get? hframe)
  have hown : ∀ call ∈ own, call.By ⟨2⟩ := by
    simp [own, insert, Call.By]
  have hbuilt : ∀ call ∈ own, call.EditsTuples := by
    have hmade (value : Int32) := (hvalid value).built
    simp [own, insert, Call.EditsTuples, hmade]
  have hsmall : StaysSmall own base := by decide +kernel
  have hkept : KeepDirty own base := by decide +kernel
  have hfile : base.catalog.file file.id = .ok file := by decide +kernel
  obtain ⟨⟨aborted, habort, -, -, hseen⟩, hcommits, hcommitted⟩ :=
    lone_transaction hregular hfits hclean hown hbuilt hsmall hkept
  have hreturns : outcome (complete ⟨2⟩ true db) = .ok () := by decide +kernel
  obtain ⟨committed, hcommit⟩ : ∃ committed, complete ⟨2⟩ true db = .ok () committed :=
    exists_ok_of_outcome hreturns
  obtain ⟨-, -, hshown, -⟩ := hcommitted committed hcommit
  exact ⟨hregular, hfits, hclean, hown, hbuilt, hsmall, hkept, hroom, hfile, by decide +kernel,
    by decide +kernel, by decide +kernel, hcommits.mp ⟨committed, hcommit⟩,
    ⟨aborted, habort, (hseen hroom).2 file.id file hfile⟩, committed, hcommit, hshown hroom⟩

/-- The transaction inserts a tuple that was read from bytes that are no text, so it is wider than its
column. The commit fails, the page stays dirty, and the row that readers see is not on disk. -/
theorem commit_fails_with_wide_row :
    let schema : Schema := ⟨[{ type := .char 1, name := some "a" }], List.cons_ne_nil _ _⟩
    let base := withTable { pageSize := 6, poolPages := 1 } "t.dat" schema
    let t : Tuple := ⟨schema, [.str "\uFFFD"], none⟩
    let insert : Call := .insert ⟨1⟩ (.file "t.dat") t
    let own : List Call := [insert]
    let db := run own base
    let left := (Call.complete ⟨1⟩ true).leaves db
    Tuple.decode schema [0, 0, 0, 1, 0xFF] = some t ∧ base.Fresh ∧ base.Clean ∧
      (∀ call ∈ own, call.By ⟨1⟩) ∧ StaysSmall own base ∧ KeepDirty own base ∧
      outcome (insert.perform base) = .ok () ∧
      outcome (complete ⟨1⟩ true db) = .error (.error (.typeMismatch 0 "CHAR(1)" "CHAR(3)")) ∧
      (left.pool.page? ⟨.file "t.dat", 0⟩).map Page.isDirty = some true ∧
      left.Returns ⟨⟨.file "t.dat", 0⟩, 0⟩ [.str "\uFFFD"] ∧
      left.diskRow? ⟨⟨.file "t.dat", 0⟩, 0⟩ = none := by
  intro schema base t insert own db left
  have hfresh : base.Fresh := fresh_withTable _ _ _
  have hclean : base.Clean := by
    intro id page hcached
    rw [hfresh.pool] at hcached
    cases hcached
  have hown : ∀ call ∈ own, call.By ⟨1⟩ := by
    simp [own, insert, Call.By]
  exact ⟨by decide +kernel, hfresh, hclean, hown, by decide +kernel, by decide +kernel, by decide +kernel,
    by decide +kernel, by decide +kernel, by decide +kernel, by decide +kernel⟩

end Database
end RowStore
