import RowStore.Proofs.CallSteps

/-!
# What visits of pages leave

Fetches and appends load clean pages into new frames and lose other frames. As long as they lose no
dirty frame, the files keep the rows that they have on disk: clean pages are not written, and a new
page is a page of zeros, which is what a file reads as behind its end. An insert or a delete is a visit
and then at most one marked page in the place of a cached one.
-/
namespace RowStore

namespace TableFile

theorem rowsOnDisk_behind {file : TableFile} {volume : Volume} {n : PageNo}
    (hn : file.pageTotal volume ≤ n.toNat) :
    file.rowsOnDisk volume n = List.replicate file.slotCount none := by
  have hend : (volume.bytes file.pages.name).length ≤ file.pages.offset n := by
    have hpos : 0 < file.pages.pageSize := file.pageSize_pos
    have hpages := (Nat.div_le_iff_le_mul_add_pred hpos).mp hn
    rw [← Contents.length_toBytes, Nat.mul_comm] at hpages
    exact Nat.le_of_add_le_add_right hpages
  have himage : file.pages.image volume n = List.replicate file.pageSize 0 := by
    rw [PageFile.image_eq, Bytes.readAt, List.drop_eq_nil_of_le hend, List.take_nil]
    rfl
  obtain ⟨page, hpage, _⟩ := Page.wellFormed_ofImage file n
    (List.length_replicate : (List.replicate file.pageSize (0 : UInt8)).length = file.pageSize)
  rw [rowsOnDisk, pageOnDisk, himage, hpage]
  exact Page.rows_ofImage_zeros file n hpage

end TableFile

namespace Database

/-- The files have on disk the rows that they had, and may have more pages. -/
def Lengthened (db db' : Database) : Prop :=
  ∀ file, db.catalog.file file.id = .ok file → file.pageTotal db.volume ≤ file.pageTotal db'.volume ∧
    ∀ n, file.rowsOnDisk db'.volume n = file.rowsOnDisk db.volume n

/-- The frame is not in the pool, whatever is in its place. -/
def Lost (db : Database) (id : PageId) (frame : Frame) : Prop :=
  ∀ other, db.pool.frames.get? id = some other → other.serial ≠ frame.serial

/-- What fetches and appends do. -/
structure Visited (db db' : Database) : Prop where
  tables : SameTables db db'
  serials : db.pool.nextSerial ≤ db'.pool.nextSerial
  /-- The frames are kept, or they are new and clean. -/
  frames : ∀ id frame, db'.pool.frames.get? id = some frame →
    db.pool.frames.get? id = some frame ∨
      db.pool.nextSerial ≤ frame.serial ∧ frame.page.isDirty = false
  disk : Lengthened db db' ∨ ∃ id frame, db.pool.frames.get? id = some frame ∧
    frame.page.isDirty = true ∧ db'.Lost id frame

theorem Lengthened.of_volume {db db' : Database} (h : db'.volume = db.volume) : Lengthened db db' := by
  intro file _
  rw [h]
  exact ⟨Nat.le_refl _, fun _ => rfl⟩

theorem Lengthened.trans {a b c : Database} (hab : Lengthened a b) (hbc : Lengthened b c)
    (hcatalog : b.catalog = a.catalog) : Lengthened a c := by
  intro file hfile
  obtain ⟨hmore, hrows⟩ := hab file hfile
  obtain ⟨hmore', hrows'⟩ := hbc file (by rwa [hcatalog])
  exact ⟨Nat.le_trans hmore hmore', fun n => (hrows' n).trans (hrows n)⟩

theorem serial_lt_of_get? {pool : Pool} (h : pool.InOrder) {id : PageId} {frame : Frame}
    (hframe : pool.frames.get? id = some frame) : frame.serial < pool.nextSerial :=
  h.serials_lt _ (List.mem_map.mpr ⟨frame,
    List.mem_map.mpr ⟨(id, frame), Assoc.mem_entries_of_get? hframe, rfl⟩, rfl⟩)

namespace Visited

theorem of_pool {db db' : Database} (htables : SameTables db db') (hpool : db'.pool = db.pool)
    (hdisk : Lengthened db db') : Visited db db' := by
  constructor
  case tables => exact htables
  case serials => exact Nat.le_of_eq (congrArg Pool.nextSerial hpool).symm
  case frames =>
    intro id frame hframe
    rw [hpool] at hframe
    exact Or.inl hframe
  case disk => exact Or.inl hdisk

theorem refl (db : Database) : Visited db db := of_pool (.refl db) rfl (.of_volume rfl)

/-- A frame that was lost does not come back, since new frames have new serial numbers. -/
theorem trans {a b c : Database} (h : a.pool.InOrder) (hab : Visited a b) (hbc : Visited b c) :
    Visited a c := by
  constructor
  case tables => exact hab.tables.trans hbc.tables
  case serials => exact Nat.le_trans hab.serials hbc.serials
  case frames =>
    intro id frame hframe
    rcases hbc.frames id frame hframe with hkept | ⟨hnew, hclean⟩
    · exact hab.frames id frame hkept
    · exact Or.inr ⟨Nat.le_trans hab.serials hnew, hclean⟩
  case disk =>
    rcases hab.disk with hfirst | ⟨id, frame, hframe, hdirty, hlost⟩
    · rcases hbc.disk with hsecond | ⟨id, frame, hframe, hdirty, hlost⟩
      · exact Or.inl (hfirst.trans hsecond hab.tables.catalog)
      · right
        rcases hab.frames id frame hframe with hkept | ⟨_, hclean⟩
        · exact ⟨id, frame, hkept, hdirty, hlost⟩
        · rw [hdirty] at hclean
          cases hclean
    · refine Or.inr ⟨id, frame, hframe, hdirty, fun other hother => ?_⟩
      rcases hbc.frames id other hother with hkept | ⟨hnew, _⟩
      · exact hlost other hkept
      · have hold := serial_lt_of_get? h hframe
        have hserials := hab.serials
        omega

end Visited

variable {db db' : Database}

theorem visited_makeRoom (h : db.pool.InOrder) (hroom : makeRoom db = .ok () db') : Visited db db' := by
  rcases makeRoom_cases h with ⟨_, hmake⟩ |
    ⟨_, victim, _, page, _, _, ⟨_, hmake⟩ | ⟨w, _, hmake⟩⟩ | ⟨e, hmake⟩ <;>
    rw [hmake] at hroom <;> cases hroom
  · exact .refl db
  · refine ⟨⟨rfl, rfl, rfl⟩, Nat.le_refl _, fun id frame hframe => ?_, Or.inl (.of_volume rfl)⟩
    change (db.pool.frames.erase victim).get? id = some frame at hframe
    rw [Assoc.get?_erase] at hframe
    split at hframe
    · cases hframe
    · exact Or.inl hframe
  · have hframes (id : PageId) : (w.result.without victim).pool.frames.get? id =
        if id = victim then none else db.pool.frames.get? id := by
      change ((db.pool.frames.modify victim _).erase victim).get? id = _
      rw [Assoc.get?_erase, Assoc.get?_modify]
      split <;> rfl
    refine ⟨⟨rfl, rfl, w.sameTables.files⟩, Nat.le_refl _, fun id frame hframe => ?_, Or.inr ?_⟩
    · rw [hframes] at hframe
      split at hframe
      · cases hframe
      · exact Or.inl hframe
    · obtain ⟨frame, hframe, hpage⟩ := Option.map_eq_some_iff.mp w.cached
      refine ⟨victim, frame, hframe, hpage ▸ w.dirty, fun other hother => ?_⟩
      rw [hframes, if_pos rfl] at hother
      cases hother

theorem visited_holding {page : Page} (hclean : page.isDirty = false) :
    Visited db (db.holding page) := by
  refine ⟨⟨rfl, rfl, rfl⟩, Nat.le_succ _, fun id frame hframe => ?_, Or.inl (.of_volume rfl)⟩
  change (db.pool.frames.insert page.id _).get? id = some frame at hframe
  rw [Assoc.get?_insert] at hframe
  split at hframe
  · cases hframe
    exact Or.inr ⟨Nat.le_refl _, hclean⟩
  · exact Or.inl hframe

theorem Load.clean {id : PageId} (load : Load db id) : load.page.isDirty = false := by
  obtain ⟨slots, hpage, _⟩ := Page.ofImage_eq_ok load.parsed
  rw [hpage]
  rfl

theorem visited_countTransfer (db : Database) (file : TableFile) :
    Visited db (db.countTransfer file Traffic.countRead) :=
  .of_pool (sameTables_countTransfer _ _ _) rfl (.of_volume rfl)

theorem visited_fetch (h : db.pool.InOrder) (id : PageId) : Visited db (after (fetch id) db) := by
  rcases fetch_cases id db with ⟨frame, _, hfetch⟩ | ⟨_, load, middle, hroom, hfetch⟩ | ⟨e, hfetch⟩ |
    ⟨file, e, hfetch⟩
  · rw [after_of_ok hfetch]
    exact .refl db
  · rw [after_of_ok hfetch]
    have hinOrder : load.read.pool.InOrder := h
    exact (visited_countTransfer db load.file).trans h
      ((visited_makeRoom hinOrder hroom).trans hinOrder (visited_holding load.clean))
  · rw [after_of_error hfetch]
    exact .refl db
  · rw [after_of_error hfetch]
    exact visited_countTransfer db file

theorem visited_appending (h : db.Coherent) {file : TableFile} {n : PageNo}
    (hfile : db.catalog.file file.id = .ok file) (hlast : n.toNat = file.pageTotal db.volume) :
    Visited db (db.appending file n) := by
  refine .of_pool (sameTables_storing _ _ _ _) rfl fun other hother => ⟨?_, fun m => ?_⟩
  · rw [pageTotal_appending h hfile hlast hother]
    split
    · exact Nat.le_succ _
    · exact Nat.le_refl _
  · rw [rowsOnDisk_appending h hfile hother]
    split
    · next hid =>
      cases h.file_eq hfile hother (congrArg PageId.table hid)
      have hnumber : m = n := congrArg PageId.number hid
      rw [TableFile.rowsOnDisk_behind (Nat.le_of_eq (hnumber ▸ hlast.symm))]
    · rfl

/-- After a visit at most one cached page is replaced, by a page that the transaction has marked. -/
def Edited (txn : TransactionId) (db db' : Database) : Prop :=
  ∃ middle, Visited db middle ∧ (db' = middle ∨ ∃ id old page, middle.pool.page? id = some old ∧
    page.dirtiedBy = some txn ∧ db' = middle.replacing id page)

variable {txn : TransactionId}

theorem Visited.edited (h : Visited db db') : Edited txn db db' := ⟨db', h, Or.inl rfl⟩

theorem Edited.of_visited {middle : Database} (h : db.pool.InOrder) (hvisit : Visited db middle)
    (hedit : Edited txn middle db') : Edited txn db db' := by
  obtain ⟨last, hmore, hlast⟩ := hedit
  exact ⟨last, hvisit.trans h hmore, hlast⟩

theorem edited_update (h : db.Coherent) (txn : TransactionId) (id : PageId) {edit : PageEdit Unit}
    (herror : ∀ e page page', edit page = .error e page' → page' = page) :
    Edited txn db (after (update txn id edit) db) := by
  have hvisit := visited_fetch h.inOrder id
  obtain ⟨hpages, hcached⟩ := fetch_pages h id
  cases hfetch : fetch id db with
  | error e middle =>
    rw [after_of_error hfetch] at hvisit
    rw [after_of_error (update_of_fetch_error hfetch txn edit)]
    exact hvisit.edited
  | ok frame middle =>
    rw [after_of_ok hfetch] at hvisit hpages
    have hframe := hcached frame middle hfetch
    cases hedit : edit frame.page with
    | ok _ page =>
      rw [after_of_ok (update_of_edit_ok hfetch hedit txn)]
      refine ⟨middle, hvisit, Or.inr ⟨id, frame.page, page.markDirty txn, ?_, rfl, rfl⟩⟩
      rw [Pool.page?, hframe, Option.map_some]
    | error e page =>
      rw [after_of_error (update_of_edit_error hfetch hedit txn), herror e _ _ hedit,
        replacing_self (h.pages hpages).1.inOrder hframe]
      exact hvisit.edited

/-- The search for a free slot is a visit, and so is the append of a page. -/
theorem edited_insertAmong {file : TableFile} (txn : TransactionId) (t : Tuple) (left page : Nat)
    {db : Database} (h : db.Coherent) (hfile : db.catalog.file file.id = .ok file)
    (hleft : page + left = file.pageTotal db.volume) (hsmall : file.pageTotal db.volume < UInt32.size) :
    Edited txn db (after (insertAmong file txn t page left) db) := by
  have herror (e : StoreError) (old new : Page) (hedit : insertEdit t old = .error e new) : new = old :=
    Page.insertEdit_eq_error hedit
  induction left generalizing page db with
  | zero =>
    have hlast : (UInt32.ofNat page).toNat = file.pageTotal db.volume := by
      rw [UInt32.toNat_ofNat_of_lt' (by omega), ← hleft, Nat.add_zero]
    rw [after_congr (insertAmong_zero file txn t page db), after_updateList]
    exact .of_visited h.inOrder (visited_appending h hfile hlast)
      (edited_update (h.appending hfile hlast) txn _ herror)
  | succ left ih =>
    have hvisit := visited_fetch h.inOrder ⟨file.id, UInt32.ofNat page⟩
    obtain ⟨hpages, _⟩ := fetch_pages h ⟨file.id, UInt32.ofNat page⟩
    rw [after, insertAmong_succ]
    cases hfetch : fetch ⟨file.id, UInt32.ofNat page⟩ db with
    | error e middle =>
      rw [after_of_error hfetch] at hvisit
      exact hvisit.edited
    | ok frame middle =>
      rw [after_of_ok hfetch] at hvisit hpages
      obtain ⟨hcoherent, hsame⟩ := h.pages hpages
      apply Edited.of_visited h.inOrder hvisit
      by_cases hfree : 0 < frame.page.numEmptySlots
      · simp only [hfree, if_true]
        have hupdate := edited_update hcoherent txn ⟨file.id, UInt32.ofNat page⟩ herror
        rwa [← after_updateList] at hupdate
      · simp only [hfree, if_false]
        have htotal := hsame.pages file hfile
        apply ih (page + 1) hcoherent
        · rwa [hsame.tables.catalog]
        · rw [htotal]
          omega
        · rwa [htotal]

theorem edited_insertTuple (h : db.Coherent) (hsmall : db.Small) (txn : TransactionId)
    (table : TableId) (t : Tuple) : Edited txn db (after (insertTuple txn table t) db) := by
  cases hfile : db.catalog.file table with
  | error e =>
    rw [after_of_error (insertTuple_of_missing txn t hfile)]
    exact (Visited.refl db).edited
  | ok file =>
    have hinsert := insertTuple_eq txn t hfile
    have htotal := TableFile.numPages_toNat (hsmall table file hfile)
    by_cases hagrees : t.schema.Agrees file.schema
    · rw [if_pos hagrees] at hinsert
      rw [after_unanswered hinsert]
      apply edited_insertAmong txn t _ 0 h (h.registered hfile) _ (hsmall table file hfile)
      rw [Nat.zero_add, htotal]
    · rw [if_neg hagrees] at hinsert
      rw [after_of_error hinsert]
      exact (Visited.refl db).edited

theorem edited_deleteTuple (h : db.Coherent) (txn : TransactionId) (t : Tuple) :
    Edited txn db (after (deleteTuple txn t) db) := by
  cases hrecord : t.record with
  | none =>
    rw [after_of_error (deleteTuple_of_noRecord txn hrecord db)]
    exact (Visited.refl db).edited
  | some record =>
    cases hfile : db.catalog.file record.page.table with
    | error e =>
      rw [after_of_error (deleteTuple_of_missing txn hrecord hfile)]
      exact (Visited.refl db).edited
    | ok file =>
      have hdelete := deleteTuple_eq txn hrecord hfile
      cases hcheck : file.checkPage db.volume record.page with
      | error e =>
        rw [hcheck] at hdelete
        rw [after_of_error hdelete]
        exact (Visited.refl db).edited
      | ok _ =>
        rw [hcheck] at hdelete
        rw [after_unanswered hdelete]
        exact edited_update h txn record.page fun e page page' hedit => Page.delete_eq_error hedit

end Database
end RowStore
