import RowStore.Proofs.Coherence

/-!
# Calls as steps

From a coherent database every fetch and every flush is a chain of steps of paging, and every call
that changes pages by inserts and deletes only is a chain of steps.
-/
namespace RowStore
open Relation

namespace Database

variable {erased : RecordId → Prop}

theorem steps_of_pages {db db' : Database} (h : ReflTransGen Paging db db') :
    ReflTransGen (Step erased) db db' :=
  h.lift id fun _ _ => Step.paging

theorem Sound.writeBack {db : Database} (h : db.Coherent) {victim id : PageId}
    (w : WriteBack db victim) {page : Page} {file : TableFile} (hsound : Sound db id page file)
    (hother : id ≠ victim) : Sound w.result id page file := by
  have hid := hsound.file_id h
  have hfile := h.registered hsound.registered
  refine hsound.of_same rfl (Nat.le_of_eq (w.pageTotal h hfile).symm) ?_
  rw [w.rowsOnDisk h hfile, if_neg]
  rw [hid]
  exact hother

theorem makeRoom_pages {db db' : Database} (h : db.Coherent) {id : PageId}
    (hmiss : db.pool.frames.get? id = none) (hroom : makeRoom db = .ok () db') :
    ReflTransGen Paging db db' ∧ db'.pool.size < db'.pool.capacity ∧
      db'.pool.frames.get? id = none ∧ ∀ page file, Sound db id page file → Sound db' id page file := by
  rcases makeRoom_cases h.inOrder with ⟨hnotFull, hmake⟩ |
    ⟨hfull, victim, rest, page, hfront, hcached, ⟨hclean, hmake⟩ | ⟨w, rfl, hmake⟩⟩ | ⟨e, hmake⟩ <;>
    rw [hmake] at hroom <;> cases hroom
  · refine ⟨.refl, ?_, hmiss, fun _ _ hsound => hsound⟩
    rwa [h.inOrder.size_eq]
  · obtain ⟨_, hsize, hout⟩ := h.inOrder.ready_of_drop hfront hfull hmiss
    refine ⟨.single (.evict hcached hclean), hsize, hout, fun _ _ hsound => ?_⟩
    exact hsound.of_same rfl (Nat.le_refl _) rfl
  · have hmarked : w.result.pool.InOrder := h.inOrder.of_outline w.outline
    have hstill : w.result.pool.frames.get? id = none := by
      change (db.pool.frames.modify victim _).get? id = none
      rw [Assoc.get?_modify, hmiss, Option.map_none, ite_self]
    have hclean : w.result.pool.page? victim = some w.page.markClean := by
      rw [w.page?_result, if_pos rfl]
    obtain ⟨_, hsize, hout⟩ := hmarked.ready_of_drop hfront hfull hstill
    refine ⟨.tail (.single (.writeBack w)) (.evict hclean rfl), hsize, hout, fun _ _ hsound => ?_⟩
    have hother : id ≠ victim := by
      rintro rfl
      rw [page?_eq_none hmiss] at hcached
      cases hcached
    exact (hsound.writeBack h w hother).of_same rfl (Nat.le_refl _) rfl

/-- A fetch is paging, and what it answers is cached. -/
theorem fetch_pages {db : Database} (h : db.Coherent) (id : PageId) :
    ReflTransGen Paging db (after (fetch id) db) ∧
      ∀ frame db', fetch id db = .ok frame db' → db'.pool.frames.get? id = some frame := by
  rcases fetch_cases id db with ⟨frame, hcached, hfetch⟩ | ⟨hmiss, load, middle, hroom, hfetch⟩ |
    ⟨e, hfetch⟩ | ⟨file, e, hfetch⟩
  · rw [after_of_ok hfetch]
    refine ⟨.refl, fun found db' hfound => ?_⟩
    rw [hfetch] at hfound
    cases hfound
    exact hcached
  · have hread : Paging db load.read := .read load.file
    obtain ⟨hcoherent, _⟩ := h.paging hread
    obtain ⟨hpages, hsize, hmissing, hstill⟩ := makeRoom_pages hcoherent hmiss hroom
    obtain ⟨_, hcounted⟩ := TableFile.number_lt_of_checkPage load.counted
    obtain ⟨hsound, hclean⟩ :=
      hcoherent.sound_of_parsed load.registered hcounted load.parsed
    rw [after_of_ok hfetch]
    refine ⟨(ReflTransGen.head hread hpages).tail (.load (hstill _ _ hsound) hclean hmissing hsize),
      fun found db' hfound => ?_⟩
    rw [hfetch] at hfound
    cases hfound
    change (middle.pool.frames.insert load.page.id _).get? id = _
    rw [Assoc.get?_insert, if_pos load.page_id.symm]
    rfl
  · rw [after_of_error hfetch]
    refine ⟨.refl, fun found db' hfound => ?_⟩
    rw [hfetch] at hfound
    cases hfound
  · rw [after_of_error hfetch]
    refine ⟨.single (.read file), fun found db' hfound => ?_⟩
    rw [hfetch] at hfound
    cases hfound

theorem writeBack_pages (id : PageId) (db : Database) :
    ReflTransGen Paging db (after (writeBack id) db) := by
  rcases writeBack_cases id db with ⟨hback, _⟩ | ⟨w, hback⟩ | ⟨e, hback⟩
  · rw [after_of_ok hback]
  · rw [after_of_ok hback]
    exact .single (.writeBack w)
  · rw [after_of_error hback]

theorem writeAll_pages (ids : List PageId) (db : Database) :
    ReflTransGen Paging db (after (writeAll ids) db) := by
  induction ids generalizing db with
  | nil => exact .refl
  | cons id ids ih =>
    rw [writeAll_cons]
    apply after_bind_of_trans (R := ReflTransGen Paging) ReflTransGen.trans (writeBack_pages id db)
    intro _ db' _
    exact ih db'

theorem foldl_without_steps (ids : List PageId) (db : Database) :
    ReflTransGen (Step erased) db (ids.foldl without db) := by
  induction ids generalizing db with
  | nil => exact .refl
  | cons id ids ih => exact .head (.discard id) (ih (db.without id))

theorem replacing_self {db : Database} (h : db.pool.InOrder) {id : PageId} {frame : Frame}
    (hframe : db.pool.frames.get? id = some frame) : db.replacing id frame.page = db := by
  rw [replacing, Pool.modify, Assoc.modify_eq_self h.nodup_keys hframe rfl]

/-- An edit of a fetched page that leaves the page where it fails is a chain of steps, if its success
is a step. -/
theorem update_steps {db : Database} (h : db.Coherent) (txn : TransactionId) (id : PageId)
    (edit : PageEdit Unit)
    (hok : (∃ frame db', update txn id edit db = .ok frame db') → ∀ db' page page', db'.Coherent →
      db'.pool.page? id = some page → edit page = .ok () page' →
        Step erased db' (db'.replacing id (page'.markDirty txn)))
    (herror : ∀ e page page', edit page = .error e page' → page' = page) :
    ReflTransGen (Step erased) db (after (update txn id edit) db) := by
  obtain ⟨hpages, hcached⟩ := fetch_pages h id
  have hsteps : ReflTransGen (Step erased) db _ := steps_of_pages hpages
  cases hfetch : fetch id db with
  | error e db' =>
    rw [after_of_error (update_of_fetch_error hfetch txn edit)]
    rwa [after_of_error hfetch] at hsteps
  | ok frame db' =>
    rw [after_of_ok hfetch] at hsteps
    have hcoherent := h.steps hsteps
    have hframe := hcached frame db' hfetch
    have hpage : db'.pool.page? id = some frame.page := by
      rw [Pool.page?, hframe]
      rfl
    cases hedit : edit frame.page with
    | ok _ page =>
      have hupdate := update_of_edit_ok hfetch hedit txn
      rw [after_of_ok hupdate]
      exact hsteps.tail (hok ⟨_, _, hupdate⟩ db' _ _ hcoherent hpage hedit)
    | error e page =>
      rw [after_of_error (update_of_edit_error hfetch hedit txn), herror e _ _ hedit,
        replacing_self hcoherent.inOrder hframe]
      exact hsteps

theorem update_insert_steps {db : Database} (h : db.Coherent) (txn : TransactionId) (id : PageId)
    {t : Tuple} (ht : t.Complete) :
    ReflTransGen (Step erased) db (after (update txn id (insertEdit t)) db) := by
  apply update_steps h
  · intro _ db' page page' _ hcached hedit
    obtain ⟨hagrees, slot, hslot, rfl⟩ := Page.insertEdit_eq_ok.mp hedit
    exact .insert txn hcached hagrees ht hslot
  · intro e page page' hedit
    exact Page.insertEdit_eq_error hedit

theorem update_delete_steps {db : Database} (h : db.Coherent) (txn : TransactionId) (id : PageId)
    (t : Tuple)
    (herased : ∀ frame db' record, update txn id (Page.delete t) db = .ok frame db' →
      t.record = some record → erased record) :
    ReflTransGen (Step erased) db (after (update txn id (Page.delete t)) db) := by
  apply update_steps h
  · rintro ⟨frame, last, hupdate⟩ db' page page' hcoherent hcached hedit
    obtain ⟨record, hrecord, hpage, hused, rfl⟩ := Page.delete_eq_ok.mp hedit
    obtain ⟨file, hsound⟩ := hcoherent.cached id page hcached
    rw [hsound.identified] at hpage
    subst hpage
    exact .delete txn (herased frame last record hupdate hrecord) hcached hused
  · intro e page page' hedit
    exact Page.delete_eq_error hedit

/-- The pages left to visit are those up to the end of the file, so the page that is written when all
are full is the one behind the last. -/
theorem insertAmong_steps {file : TableFile} (txn : TransactionId) {t : Tuple} (ht : t.Complete)
    (left page : Nat) {db : Database} (h : db.Coherent)
    (hfile : db.catalog.file file.id = .ok file) (hleft : page + left = file.pageTotal db.volume)
    (hsmall : file.pageTotal db.volume < UInt32.size) :
    ReflTransGen (Step erased) db (after (insertAmong file txn t page left) db) := by
  induction left generalizing page db with
  | zero =>
    have hlast : (UInt32.ofNat page).toNat = file.pageTotal db.volume := by
      rw [UInt32.toNat_ofNat_of_lt' (by omega), ← hleft, Nat.add_zero]
    rw [after_congr (insertAmong_zero file txn t page db), after_updateList]
    exact .head (.append hfile hlast) (update_insert_steps (h.appending hfile hlast) txn _ ht)
  | succ left ih =>
    obtain ⟨hpages, _⟩ := fetch_pages h ⟨file.id, UInt32.ofNat page⟩
    rw [after, insertAmong_succ]
    cases hfetch : fetch ⟨file.id, UInt32.ofNat page⟩ db with
    | error e db' =>
      rw [after_of_error hfetch] at hpages
      exact steps_of_pages hpages
    | ok frame db' =>
      rw [after_of_ok hfetch] at hpages
      obtain ⟨hcoherent, hsame⟩ := h.pages hpages
      apply (steps_of_pages hpages).trans
      by_cases hfree : 0 < frame.page.numEmptySlots
      · simp only [hfree, if_true]
        have hupdate : ReflTransGen (Step erased) db' _ :=
          update_insert_steps hcoherent txn ⟨file.id, UInt32.ofNat page⟩ ht
        rwa [← after_updateList] at hupdate
      · simp only [hfree, if_false]
        have htotal := hsame.pages file hfile
        apply ih (page + 1) hcoherent
        · rwa [hsame.tables.catalog]
        · rw [htotal]
          omega
        · rwa [htotal]

/-- Every registered file has fewer pages than a page number can count. -/
def Small (db : Database) : Prop :=
  ∀ table file, db.catalog.file table = .ok file → file.pageTotal db.volume < UInt32.size

theorem Small.of_pageTotal {db db' : Database} (h : db.Small) (hcatalog : db'.catalog = db.catalog)
    (hpages : ∀ table file, db.catalog.file table = .ok file →
      file.pageTotal db'.volume = file.pageTotal db.volume) : db'.Small := by
  intro table file hfile
  rw [hcatalog] at hfile
  rw [hpages table file hfile]
  exact h table file hfile

theorem Small.of_sameRows {db db' : Database} (h : db.Small) (hcoherent : db.Coherent)
    (hsame : SameRows db db') : db'.Small := by
  apply h.of_pageTotal hsame.tables.catalog
  intro table file hfile
  exact hsame.pages file (hcoherent.registered hfile)

/-- The table has fewer pages than a page number can count. -/
def SmallTable (db : Database) (table : TableId) : Prop :=
  ∀ file, db.catalog.file table = .ok file → file.pageTotal db.volume < UInt32.size

theorem insertTuple_steps {db : Database} (h : db.Coherent) (txn : TransactionId) {table : TableId}
    (hsmall : db.SmallTable table) {t : Tuple} (ht : t.Complete) :
    ReflTransGen (Step erased) db (after (insertTuple txn table t) db) := by
  cases hfile : db.catalog.file table with
  | error e => rw [after_of_error (insertTuple_of_missing txn t hfile)]
  | ok file =>
    have hinsert := insertTuple_eq txn t hfile
    by_cases hagrees : t.schema.Agrees file.schema
    · have htotal := TableFile.numPages_toNat (hsmall file hfile)
      rw [if_pos hagrees] at hinsert
      rw [after_unanswered hinsert]
      apply insertAmong_steps txn ht _ 0 h (h.registered hfile) _ (hsmall file hfile)
      rw [Nat.zero_add, htotal]
    · rw [if_neg hagrees] at hinsert
      rw [after_of_error hinsert]

theorem deleteTuple_steps {db : Database} (h : db.Coherent) (txn : TransactionId) (t : Tuple)
    (herased : ∀ db' record, deleteTuple txn t db = .ok () db' → t.record = some record →
      erased record) :
    ReflTransGen (Step erased) db (after (deleteTuple txn t) db) := by
  cases hrecord : t.record with
  | none => rw [after_of_error (deleteTuple_of_noRecord txn hrecord db)]
  | some record =>
    cases hfile : db.catalog.file record.page.table with
    | error e => rw [after_of_error (deleteTuple_of_missing txn hrecord hfile)]
    | ok file =>
      have hdelete := deleteTuple_eq txn hrecord hfile
      cases hcheck : file.checkPage db.volume record.page with
      | error e =>
        rw [hcheck] at hdelete
        rw [after_of_error hdelete]
      | ok _ =>
        rw [hcheck] at hdelete
        rw [after_unanswered hdelete]
        apply update_delete_steps h
        intro frame db' other hupdate hother
        dsimp only at hdelete
        rw [hupdate] at hdelete
        exact herased db' other hdelete hother

end Database

namespace Call
open Database

/-- The call changes pages by inserts and deletes only. -/
def EditsTuples : Call → Prop
  | .insert _ _ t => t.Built
  | .update _ _ _ => False
  | .fetch _ | .delete _ _ | .flushPage _ | .flushTransaction _ | .flushAll | .flushList _
  | .discard _ | .complete _ _ => True

/-- The call succeeds in deleting the record. -/
def Erases (call : Call) (db : Database) (record : RecordId) : Prop :=
  match call with
  | .delete _ t => t.record = some record ∧ call.Succeeds db
  | _ => False

/-- If the call inserts into a table, the table has fewer pages than a page number can count. -/
def IntoSmall (call : Call) (db : Database) : Prop :=
  match call with
  | .insert _ table _ => db.SmallTable table
  | _ => True

theorem intoSmall_of_small (call : Call) {db : Database} (h : db.Small) : call.IntoSmall db := by
  cases call with
  | insert txn table t => exact h table
  | _ => trivial

/-- The call only reads pages and writes them back. -/
def OnlyPages : Call → Prop
  | .fetch _ | .flushPage _ | .flushTransaction _ | .flushAll | .flushList _ => True
  | .complete _ commit => commit = true
  | .insert _ _ _ | .delete _ _ | .update _ _ _ | .discard _ => False

theorem leaves_pages (call : Call) (hcall : call.OnlyPages) {db : Database} (h : db.Coherent) :
    ReflTransGen Paging db (call.leaves db) := by
  cases call with
  | fetch id =>
    rw [leaves, perform, after_ignored]
    exact (fetch_pages h id).1
  | flushPage id =>
    rw [leaves, perform, after_ignored, after_flushPage]
    exact writeBack_pages id db
  | flushTransaction txn => exact writeAll_pages _ db
  | flushAll => exact writeAll_pages _ db
  | flushList ids => exact writeAll_pages ids db
  | complete txn commit =>
    cases hcall
    exact writeAll_pages _ db
  | insert _ _ _ | delete _ _ | update _ _ _ | discard _ => exact hcall.elim

/-- A call that changes pages by inserts and deletes only is a chain of steps. -/
theorem leaves_steps {call : Call} (hcall : call.EditsTuples) {db : Database} (h : db.Coherent)
    (hsmall : call.IntoSmall db) : ReflTransGen (Step (call.Erases db)) db (call.leaves db) := by
  by_cases hpages : call.OnlyPages
  · exact steps_of_pages (call.leaves_pages hpages h)
  cases call with
  | insert txn table t => exact insertTuple_steps h txn hsmall hcall.complete
  | delete txn t =>
    apply deleteTuple_steps h
    intro db' record hdelete hrecord
    exact ⟨hrecord, db', hdelete⟩
  | update txn id edit => exact hcall.elim
  | discard id => exact .single (.discard id)
  | complete txn commit =>
    cases commit with
    | true => exact absurd rfl hpages
    | false =>
      rw [leaves, perform, after_of_ok (complete_abort txn db)]
      exact foldl_without_steps _ db
  | fetch _ | flushPage _ | flushTransaction _ | flushAll | flushList _ => exact absurd trivial hpages

end Call

namespace Database

theorem small_iff (db : Database) :
    db.Small ↔ ∀ table ∈ db.catalog.tables.keys, ∀ file ∈ (db.catalog.file table).toOption,
      file.pageTotal db.volume < UInt32.size := by
  have hmem {table : TableId} {file : TableFile} :
      file ∈ (db.catalog.file table).toOption ↔ db.catalog.file table = .ok file := by
    cases db.catalog.file table <;> simp [Except.toOption]
  constructor
  · intro h table _ file hfile
    exact h table file (hmem.mp hfile)
  · intro h table file hfile
    exact h table (Catalog.mem_keys_of_file hfile) file (hmem.mpr hfile)

instance (db : Database) : Decidable db.Small := decidable_of_iff _ db.small_iff.symm

/-- No state of the run has a file with more pages than a page number can count. -/
def StaysSmall : List Call → Database → Prop
  | [], db => db.Small
  | call :: calls, db => db.Small ∧ StaysSmall calls (call.leaves db)

instance decidableStaysSmall : (calls : List Call) → (db : Database) → Decidable (StaysSmall calls db)
  | [], db => inferInstanceAs (Decidable db.Small)
  | call :: calls, db =>
    have := decidableStaysSmall calls (call.leaves db)
    inferInstanceAs (Decidable (_ ∧ _))

theorem StaysSmall.last {calls : List Call} {db : Database} (h : StaysSmall calls db) :
    (run calls db).Small := by
  induction calls generalizing db with
  | nil => exact h
  | cons call calls ih => exact ih h.2

theorem StaysSmall.first {calls : List Call} {db : Database} (h : StaysSmall calls db) : db.Small := by
  cases calls with
  | nil => exact h
  | cons call calls => exact h.1

theorem coherent_run {calls : List Call} {db : Database}
    (hcalls : ∀ call ∈ calls, call.EditsTuples) (h : db.Coherent) (hsmall : StaysSmall calls db) :
    (run calls db).Coherent := by
  induction calls generalizing db with
  | nil => exact h
  | cons call calls ih =>
    apply ih (fun other hmem => hcalls other (List.mem_cons_of_mem _ hmem)) _ hsmall.2
    have hedits := hcalls call List.mem_cons_self
    exact h.steps (Call.leaves_steps hedits h (call.intoSmall_of_small hsmall.1))

/-- Readers find every page of a registered file, with the rows that they see. -/
theorem Coherent.page?_eq_some {db : Database} (h : db.Coherent) {file : TableFile}
    (hfile : db.catalog.file file.id = .ok file) (hsmall : file.pageTotal db.volume < UInt32.size)
    {n : PageNo} (hn : n.toNat < file.pageTotal db.volume) :
    ∃ page, db.page? ⟨file.id, n⟩ = some page ∧ page.id = ⟨file.id, n⟩ ∧ page.WellFormed file ∧
      page.rows = db.rowsAt file n := by
  cases hcached : db.pool.page? ⟨file.id, n⟩ with
  | some page =>
    have hsound := h.sound_of_cached hfile hcached
    exact ⟨page, page?_of_cached hcached, hsound.identified, hsound.wellFormed,
      (rowsAt_of_cached hcached).symm⟩
  | none =>
    obtain ⟨page, hpage, hid, _, hformed, hrows⟩ := file.pageOnDisk_eq_ok db.volume n
    have hcheck := TableFile.checkPage_of_counted hsmall hn
    refine ⟨page, ?_, hid, hformed, hrows.trans (rowsAt_of_missing hcached).symm⟩
    rw [page?, hcached, Option.none_or]
    exact pageOnDisk?_of_readPage hfile (readPage_of_counted hcheck hpage)

theorem Coherent.page?_eq_none {db : Database} (h : db.Coherent) {file : TableFile}
    (hfile : db.catalog.file file.id = .ok file) {n : PageNo}
    (hn : file.pageTotal db.volume ≤ n.toNat) : db.page? ⟨file.id, n⟩ = none := by
  have hmissing : db.pool.page? ⟨file.id, n⟩ = none := by
    cases hcached : db.pool.page? ⟨file.id, n⟩ with
    | none => rfl
    | some page =>
      exact absurd (h.sound_of_cached hfile hcached).counted (Nat.not_lt_of_le hn)
  rw [page?, hmissing, Option.none_or, pageOnDisk?, hfile]
  cases hcheck : file.checkPage db.volume ⟨file.id, n⟩ with
  | error e => simp only [hcheck]
  | ok _ => exact absurd (TableFile.number_lt_of_checkPage hcheck).2 (Nat.not_lt_of_le hn)

end Database
end RowStore
