import RowStore.Proofs.CallSteps

/-!
# Calls that cannot fail

Where all rows fit the columns of their tables and the pool has at least one frame, every dirty page
can be written, so room can always be made. Then a fetch fails only for a page that is not in a
registered table, and an edit of tuples fails only where the rules for tuples refuse it.
-/
namespace RowStore
open Relation

/-- The row can be stored in the file. -/
def TableFile.Holds (file : TableFile) (row : List Field) : Prop :=
  row.length = file.schema.types.length ∧ ∀ pair ∈ row.zip file.schema.types, pair.1.fits pair.2 = true

theorem Tuple.Valid.holds {t : Tuple} (h : t.Valid) {file : TableFile}
    (hagrees : t.schema.Agrees file.schema) : file.Holds t.fields := by
  have htypes : t.schema.types = file.schema.types := hagrees
  rw [TableFile.Holds, ← htypes]
  exact h

theorem Tuple.valid_of_holds {t : Tuple} {file : TableFile} (h : file.Holds t.fields)
    (hagrees : t.schema.Agrees file.schema) : t.Valid := by
  have htypes : t.schema.types = file.schema.types := hagrees
  rw [Tuple.Valid, htypes]
  exact h

theorem Page.WellFormed.toImage_of_holds {file : TableFile} {page : Page} (h : page.WellFormed file)
    (hrows : ∀ row, some row ∈ page.rows → file.Holds row) : ∃ image, page.toImage = .ok image := by
  apply Page.toImage_of_valid
  intro t ht
  have hrow := hrows t.fields (List.mem_map.mpr ⟨some t, ht, rfl⟩)
  obtain ⟨hagrees, _⟩ := h.shaped.shape ht
  have htypes : t.schema.types = file.schema.types := by rw [← h.schema]; exact hagrees
  rw [Tuple.Valid, htypes]
  exact hrow

namespace Database

/-- Every cached page can be written, and there is a frame for every page that is asked for. -/
structure Ready (db : Database) : Prop where
  coherent : db.Coherent
  room : 0 < db.pool.capacity
  holds : ∀ file, db.catalog.file file.id = .ok file → ∀ n : PageNo,
    n.toNat < file.pageTotal db.volume → ∀ row, some row ∈ db.rowsAt file n → file.Holds row

theorem Ready.of_sameRows {db db' : Database} (h : db.Ready) (hcoherent : db'.Coherent)
    (hsame : SameRows db db') : db'.Ready := by
  constructor
  case coherent => exact hcoherent
  case room =>
    rw [hsame.tables.capacity]
    exact h.room
  case holds =>
    intro file hfile n hn row hrow
    rw [hsame.tables.catalog] at hfile
    rw [hsame.pages file hfile] at hn
    rw [hsame.rows file hfile] at hrow
    exact h.holds file hfile n hn row hrow

theorem Ready.pages {db db' : Database} (h : db.Ready) (hpages : ReflTransGen Paging db db') :
    db'.Ready ∧ SameRows db db' := by
  obtain ⟨hcoherent, hsame⟩ := h.coherent.pages hpages
  exact ⟨h.of_sameRows hcoherent hsame, hsame⟩

theorem Ready.writeBack_ok {db : Database} (h : db.Ready) (id : PageId) :
    ∃ wrote db', writeBack id db = .ok wrote db' := by
  cases hcached : db.pool.page? id with
  | none => exact ⟨false, db, writeBack_of_missing hcached⟩
  | some page =>
    cases hdirty : page.isDirty with
    | false => exact ⟨false, db, writeBack_of_clean hcached hdirty⟩
    | true =>
      obtain ⟨file, hsound⟩ := h.coherent.cached id page hcached
      have hid := hsound.file_id h.coherent
      have hfile := h.coherent.registered hsound.registered
      have hhome : (⟨file.id, id.number⟩ : PageId) = id := by rw [hid]
      have hrows := h.holds file hfile id.number hsound.counted
      rw [rowsAt_of_cached (by rw [hhome, hcached])] at hrows
      obtain ⟨image, himage⟩ := hsound.wellFormed.toImage_of_holds hrows
      let w : WriteBack db id :=
        { page, file, image, cached := hcached, dirty := hdirty, home := hsound.wellFormed.home
          registered := by rw [hsound.identified]; exact hsound.registered
          encoded := himage, length := (hsound.wellFormed.rows_ofImage himage).1 }
      exact ⟨true, w.result, w.performed⟩

theorem Ready.writeAll_ok {db : Database} (h : db.Ready) (ids : List PageId) :
    ∃ db', writeAll ids db = .ok () db' := by
  induction ids generalizing db with
  | nil => exact ⟨db, rfl⟩
  | cons id ids ih =>
    obtain ⟨wrote, middle, hback⟩ := h.writeBack_ok id
    have hpages := writeBack_pages id db
    rw [after_of_ok hback] at hpages
    obtain ⟨db', hrest⟩ := ih (h.pages hpages).1
    refine ⟨db', ?_⟩
    rw [writeAll_cons, Db.bind_run, hback]
    exact hrest

theorem Ready.makeRoom_ok {db : Database} (h : db.Ready) : ∃ db', makeRoom db = .ok () db' := by
  by_cases hroom : db.pool.size < db.pool.capacity
  · exact ⟨db, makeRoom_of_room hroom⟩
  · have hfull := Nat.le_of_not_lt hroom
    rw [makeRoom_of_full hfull]
    cases hfront : db.pool.queue.order with
    | nil =>
      rw [h.coherent.inOrder.size_eq, hfront] at hfull
      exact absurd h.room (Nat.not_lt_of_le hfull)
    | cons victim rest =>
      obtain ⟨wrote, db', hback⟩ := h.writeBack_ok victim
      exact ⟨_, evict_of_writeBack hfront hback⟩

/-- A page of a registered table can be fetched. -/
theorem Ready.fetch_ok {db : Database} (h : db.Ready) {id : PageId} {file : TableFile}
    (hcheck : file.checkPage db.volume id = .ok ()) (hfile : db.catalog.file id.table = .ok file) :
    ∃ frame db', fetch id db = .ok frame db' := by
  cases hcached : db.pool.frames.get? id with
  | some frame => exact ⟨frame, db, fetch_of_cached hcached⟩
  | none =>
    obtain ⟨page, hpage, _⟩ := file.pageOnDisk_eq_ok db.volume id.number
    let load : Load db id := ⟨file, page, hfile, hcheck, hpage⟩
    have hread := (h.pages (.single (Paging.read load.file))).1
    obtain ⟨db', hroom⟩ := hread.makeRoom_ok
    exact ⟨_, _, fetch_of_load load hcached hroom⟩

/-- A fetch answers the sound page with the rows that readers see. -/
theorem Coherent.fetch_shows {db db' : Database} (h : db.Coherent) {id : PageId} {frame : Frame}
    (hfetch : fetch id db = .ok frame db') :
    ReflTransGen Paging db db' ∧ db'.pool.frames.get? id = some frame ∧
      ∃ file, Sound db' id frame.page file ∧ db.catalog.file file.id = .ok file ∧
        file.id = id.table ∧ frame.page.rows = db.rowsAt file id.number := by
  obtain ⟨hpages, hcached⟩ := fetch_pages h id
  rw [after_of_ok hfetch] at hpages
  obtain ⟨hcoherent, hsame⟩ := h.pages hpages
  have hframe := hcached frame db' hfetch
  have hpage : db'.pool.page? id = some frame.page := by
    rw [Pool.page?, hframe]
    rfl
  obtain ⟨file, hsound⟩ := hcoherent.cached id frame.page hpage
  have hid := hsound.file_id hcoherent
  have hfile : db.catalog.file file.id = .ok file := by
    rw [hid, ← hsame.tables.catalog]
    exact hsound.registered
  refine ⟨hpages, hframe, file, hsound, hfile, hid, ?_⟩
  rw [← hsame.rows file hfile, rowsAt_of_cached]
  rw [hid]
  exact hpage

/-- One place has another row, and no reader sees another difference. -/
structure RowSet (db db' : Database) (file : TableFile) (n : PageNo) (slot : Nat)
    (row : Option (List Field)) : Prop where
  tables : SameTables db db'
  pages : ∀ other, db.catalog.file other.id = .ok other →
    other.pageTotal db'.volume = other.pageTotal db.volume
  rows : ∀ other, db.catalog.file other.id = .ok other → ∀ m, db'.rowsAt other m =
    if (⟨other.id, m⟩ : PageId) = ⟨file.id, n⟩ then (db.rowsAt other m).set slot row
    else db.rowsAt other m

theorem RowSet.of_sameRows {a b c : Database} {file : TableFile} {n : PageNo} {slot : Nat}
    {row : Option (List Field)} (hsame : SameRows a b) (hset : RowSet b c file n slot row) :
    RowSet a c file n slot row := by
  constructor
  case tables => exact hsame.tables.trans hset.tables
  case pages =>
    intro other hother
    exact (hset.pages other (by rwa [hsame.tables.catalog])).trans (hsame.pages other hother)
  case rows =>
    intro other hother m
    rw [hset.rows other (by rwa [hsame.tables.catalog]), hsame.rows other hother]

theorem rowSet_replacing {db : Database} {file : TableFile} {n : PageNo} {old page : Page}
    (hcached : db.pool.page? ⟨file.id, n⟩ = some old) {slot : Nat} {row : Option (List Field)}
    (hrows : page.rows = old.rows.set slot row) :
    RowSet db (db.replacing ⟨file.id, n⟩ page) file n slot row := by
  constructor
  case tables => exact ⟨rfl, rfl, rfl⟩
  case pages => exact fun _ _ => rfl
  case rows =>
    intro other _ m
    rw [rowsAt_replacing hcached]
    by_cases hid : (⟨other.id, m⟩ : PageId) = ⟨file.id, n⟩
    · rw [if_pos hid, if_pos hid, hrows, rowsAt_of_cached (hid ▸ hcached)]
    · rw [if_neg hid, if_neg hid]

theorem Ready.of_rowSet {db db' : Database} (h : db.Ready) (hcoherent : db'.Coherent)
    {file : TableFile} {n : PageNo} {slot : Nat} {row : Option (List Field)}
    (hset : RowSet db db' file n slot row) (hfile : db.catalog.file file.id = .ok file)
    (hrow : ∀ fields, row = some fields → file.Holds fields) : db'.Ready := by
  constructor
  case coherent => exact hcoherent
  case room =>
    rw [hset.tables.capacity]
    exact h.room
  case holds =>
    intro other hother m hm fields hmem
    rw [hset.tables.catalog] at hother
    rw [hset.pages other hother] at hm
    rw [hset.rows other hother] at hmem
    split at hmem
    · next hid =>
      rcases List.mem_or_eq_of_mem_set hmem with hmem | heq
      · exact h.holds other hother m hm fields hmem
      · cases h.coherent.file_eq hfile hother (congrArg PageId.table hid)
        exact hrow fields heq.symm
    · exact h.holds other hother m hm fields hmem

theorem Coherent.insertAt {db db' : Database} (h : db.Coherent) {file : TableFile} {n : PageNo}
    (hfile : db.catalog.file file.id = .ok file) {t : Tuple} {txn : TransactionId} {frame : Frame}
    (hupdate : update txn ⟨file.id, n⟩ (insertEdit t) db = .ok frame db') :
    ∃ slot, (db.rowsAt file n).findIdx? Option.isNone = some slot ∧
      RowSet db db' file n slot (some t.fields) := by
  cases hfetch : fetch ⟨file.id, n⟩ db with
  | error e middle =>
    rw [update_of_fetch_error hfetch] at hupdate
    cases hupdate
  | ok found middle =>
    obtain ⟨hpages, hframe, home, _, hhome, hid, hrows⟩ := h.fetch_shows hfetch
    cases h.file_eq hfile hhome hid
    have hcached : middle.pool.page? ⟨file.id, n⟩ = some found.page := by
      rw [Pool.page?, hframe]
      rfl
    cases hedit : insertEdit t found.page with
    | error e page =>
      rw [update_of_edit_error hfetch hedit] at hupdate
      cases hupdate
    | ok _ page =>
      obtain ⟨_, slot, hslot, rfl⟩ := Page.insertEdit_eq_ok.mp hedit
      rw [update_of_edit_ok hfetch hedit] at hupdate
      cases hupdate
      have hfilled : ((found.page.fill slot t).markDirty txn).rows =
          found.page.rows.set slot (some t.fields) := Page.rows_fill found.page slot t
      refine ⟨slot, ?_, RowSet.of_sameRows (h.pages hpages).2 (rowSet_replacing hcached hfilled)⟩
      rw [← hrows, ← Page.freeSlot?_eq, hslot]

theorem Ready.insertAt {db : Database} (h : db.Ready) {file : TableFile} {n : PageNo}
    (hfile : db.catalog.file file.id = .ok file)
    (hcheck : file.checkPage db.volume ⟨file.id, n⟩ = .ok ()) {t : Tuple}
    (hagrees : t.schema.Agrees file.schema) (hvalid : t.Valid) {slot : Nat}
    (hslot : (db.rowsAt file n).findIdx? Option.isNone = some slot) (txn : TransactionId) :
    ∃ frame db', update txn ⟨file.id, n⟩ (insertEdit t) db = .ok frame db' ∧ db'.Ready ∧
      RowSet db db' file n slot (some t.fields) := by
  obtain ⟨frame, middle, hfetch⟩ := h.fetch_ok hcheck hfile
  obtain ⟨_, _, home, hsound, hhome, hid, hrows⟩ := h.coherent.fetch_shows hfetch
  cases h.coherent.file_eq hfile hhome hid
  have hfree : frame.page.freeSlot? = some slot := by rw [Page.freeSlot?_eq, hrows, hslot]
  have hagrees' : t.schema.Agrees frame.page.schema := by rwa [hsound.wellFormed.schema]
  have hedit : insertEdit t frame.page = .ok () (frame.page.fill slot t) :=
    Page.insertEdit_eq_ok.mpr ⟨hagrees', slot, hfree, rfl⟩
  have hupdate := update_of_edit_ok hfetch hedit txn
  have hsteps : ReflTransGen (Step fun _ => False) db _ :=
    update_insert_steps h.coherent txn ⟨file.id, n⟩ hvalid.complete
  obtain ⟨found, hfound, hset⟩ := h.coherent.insertAt hfile hupdate
  rw [hslot] at hfound
  cases hfound
  rw [after_of_ok hupdate] at hsteps
  refine ⟨_, _, hupdate, h.of_rowSet (h.coherent.steps hsteps) hset hfile ?_, hset⟩
  intro fields heq
  cases heq
  exact hvalid.holds hagrees

theorem Ready.deleteAt {db : Database} (h : db.Ready) {file : TableFile} {record : RecordId}
    (hfile : db.catalog.file record.page.table = .ok file)
    (hcheck : file.checkPage db.volume record.page = .ok ()) {t : Tuple}
    (hrecord : t.record = some record) (txn : TransactionId) :
    ((∃ row, (db.rowsAt file record.page.number)[record.slot.toNat]? = some (some row)) ∧
      ∃ frame db', update txn record.page (Page.delete t) db = .ok frame db' ∧ db'.Ready ∧
        RowSet db db' file record.page.number record.slot.toNat none) ∨
    ((¬ ∃ row, (db.rowsAt file record.page.number)[record.slot.toNat]? = some (some row)) ∧
      ∃ e db', update txn record.page (Page.delete t) db = .error e db' ∧ db'.Ready ∧
        SameRows db db') := by
  obtain ⟨frame, middle, hfetch⟩ := h.fetch_ok hcheck hfile
  obtain ⟨hpages, hframe, home, hsound, hhome, hid, hrows⟩ := h.coherent.fetch_shows hfetch
  rw [← h.coherent.named _ _ hfile] at hid
  have hsameFile : home = file := by
    rw [← h.coherent.named _ _ hfile] at hfile
    exact h.coherent.file_eq hfile hhome hid
  subst hsameFile
  obtain ⟨hready, hsame⟩ := h.pages hpages
  have hplace : (⟨home.id, record.page.number⟩ : PageId) = record.page := by
    rw [h.coherent.named _ _ hfile]
  have hcached : middle.pool.page? record.page = some frame.page := by
    rw [Pool.page?, hframe]
    rfl
  have hused := hsound.wellFormed.shaped.isSlotUsed_iff record.slot.toNat
  rw [hrows] at hused
  by_cases hrow : ∃ row, (db.rowsAt home record.page.number)[record.slot.toNat]? = some (some row)
  · refine Or.inl ⟨hrow, ?_⟩
    have hedit : Page.delete t frame.page = .ok () (frame.page.free record.slot.toNat) :=
      Page.delete_eq_ok.mpr ⟨record, hrecord, hsound.identified.symm, hused.mpr hrow, rfl⟩
    have hfreed : ((frame.page.free record.slot.toNat).markDirty txn).rows =
        frame.page.rows.set record.slot.toNat none := Page.rows_free frame.page record.slot.toNat
    rw [← hplace] at hcached
    have hset := RowSet.of_sameRows hsame (rowSet_replacing hcached hfreed)
    rw [hplace] at hset hcached
    refine ⟨_, _, update_of_edit_ok hfetch hedit txn, ?_, hset⟩
    apply h.of_rowSet (hready.coherent.delete txn hcached (hused.mpr hrow)) hset hhome
    intro fields heq
    cases heq
  · refine Or.inr ⟨hrow, ?_⟩
    cases hedit : Page.delete t frame.page with
    | ok _ page =>
      obtain ⟨other, hother, _, hslot, _⟩ := Page.delete_eq_ok.mp hedit
      rw [hrecord, Option.some.injEq] at hother
      rw [← hother] at hslot
      exact absurd (hused.mp hslot) hrow
    | error e page =>
      refine ⟨_, _, update_of_edit_error hfetch hedit txn, ?_⟩
      rw [Page.delete_eq_error hedit, replacing_self hready.coherent.inOrder hframe]
      exact ⟨hready, hsame⟩

end Database
end RowStore
