import RowStore.Proofs.Scans

/-!
# What a commit makes durable

A page knows only the transaction that changed it last, and a commit writes back the pages of its
transaction by this mark. So a commit leaves out a page that another transaction has changed since,
and an abort of the other one drops it with the committed rows. The main statement says that a row
stored at a commit survives all that follows exactly if it is on disk by then.
-/
namespace RowStore
open Relation

namespace Database

/-- A scan of the table returns the row at this record. -/
def Returns (db : Database) (record : RecordId) (row : List Field) : Prop :=
  (some record, row) ∈ db.scanned record.page.table

instance (db : Database) (record : RecordId) (row : List Field) : Decidable (db.Returns record row) :=
  inferInstanceAs (Decidable (_ ∈ _))

/-- The row that the record has on disk. -/
def diskRow? (db : Database) (record : RecordId) : Option (List Field) :=
  match db.catalog.file record.page.table with
  | .ok file => (file.rowsOnDisk db.volume record.page.number)[record.slot.toNat]?.join
  | .error _ => none

/-- The row is stored on disk, and readers see it. -/
structure Durable (db : Database) (file : TableFile) (record : RecordId) (row : List Field) :
    Prop where
  registered : db.catalog.file record.page.table = .ok file
  counted : record.page.number.toNat < file.pageTotal db.volume
  disk : (file.rowsOnDisk db.volume record.page.number)[record.slot.toNat]? = some (some row)
  seen : (db.rowsAt file record.page.number)[record.slot.toNat]? = some (some row)

theorem Coherent.rowsOnDisk_paging {db db' : Database} (h : db.Coherent) (hstep : Paging db db')
    {file : TableFile} (hfile : db.catalog.file file.id = .ok file) (n : PageNo) :
    file.rowsOnDisk db'.volume n = file.rowsOnDisk db.volume n ∨
      file.rowsOnDisk db'.volume n = db.rowsAt file n := by
  cases hstep with
  | read other => exact Or.inl rfl
  | @writeBack id w =>
    rw [w.rowsOnDisk h hfile]
    by_cases hid : (⟨file.id, n⟩ : PageId) = id
    · subst hid
      rw [if_pos rfl, rowsAt_of_cached w.cached]
      exact Or.inr rfl
    · rw [if_neg hid]
      exact Or.inl rfl
  | evict _ _ => exact Or.inl rfl
  | load _ _ _ _ => exact Or.inl rfl

theorem Durable.replacing {db : Database} {file : TableFile} {record : RecordId} {row : List Field}
    (hd : Durable db file record row) (hid : file.id = record.page.table) {id : PageId} {old page : Page}
    (hcached : db.pool.page? id = some old)
    (hkept : record.page = id → old.rows[record.slot.toNat]? = some (some row) →
      page.rows[record.slot.toNat]? = some (some row)) :
    Durable (db.replacing id page) file record row := by
  have hplace : (⟨file.id, record.page.number⟩ : PageId) = record.page := by rw [hid]
  refine ⟨hd.registered, hd.counted, hd.disk, ?_⟩
  rw [rowsAt_replacing hcached, hplace]
  split
  · next heq =>
    apply hkept heq
    have hseen := hd.seen
    rwa [rowsAt_of_cached (by rw [hplace, heq, hcached])] at hseen
  · exact hd.seen

theorem Durable.paging {db db' : Database} {file : TableFile} {record : RecordId} {row : List Field}
    (hd : Durable db file record row) (h : db.Coherent) (hpaging : Paging db db') :
    Durable db' file record row := by
  have hfile := h.registered hd.registered
  have hsame := (h.paging hpaging).2
  constructor
  case registered =>
    rw [hsame.tables.catalog]
    exact hd.registered
  case counted =>
    rw [hsame.pages file hfile]
    exact hd.counted
  case disk =>
    rcases h.rowsOnDisk_paging hpaging hfile record.page.number with hdisk | hdisk <;> rw [hdisk]
    · exact hd.disk
    · exact hd.seen
  case seen =>
    rw [hsame.rows file hfile]
    exact hd.seen

theorem Durable.appending {db : Database} {file other : TableFile} {record : RecordId}
    {row : List Field} {n : PageNo} (hd : Durable db file record row) (h : db.Coherent)
    (hother : db.catalog.file other.id = .ok other) (hlast : n.toNat = other.pageTotal db.volume) :
    Durable (db.appending other n) file record row := by
  have hfile := h.registered hd.registered
  -- The new page is behind the page of the record.
  have hne : (⟨file.id, record.page.number⟩ : PageId) ≠ ⟨other.id, n⟩ := by
    intro heq
    cases h.file_eq hother hfile (congrArg PageId.table heq)
    have hnumber : record.page.number = n := congrArg PageId.number heq
    have hcounted := hd.counted
    rw [hnumber, hlast] at hcounted
    exact Nat.lt_irrefl _ hcounted
  constructor
  case registered => exact hd.registered
  case counted =>
    rw [pageTotal_appending h hother hlast hfile]
    split
    · exact Nat.lt_succ_of_lt hd.counted
    · exact hd.counted
  case disk =>
    rw [rowsOnDisk_appending h hother hfile, if_neg hne]
    exact hd.disk
  case seen =>
    rw [rowsAt_appending h hother hlast hfile, if_neg hne]
    exact hd.seen

theorem Durable.step {erased : RecordId → Prop} {db db' : Database} {file : TableFile}
    {record : RecordId} {row : List Field} (hd : Durable db file record row) (h : db.Coherent)
    (hkeep : ¬ erased record) (hstep : Step erased db db') : Durable db' file record row := by
  have hid := h.named _ _ hd.registered
  cases hstep with
  | paging hpaging => exact hd.paging h hpaging
  | @insert txn id page slot t hcached _ _ hfree =>
    apply hd.replacing hid hcached
    intro _ hrow
    obtain ⟨_, hnone, _⟩ := join_eq_none_of_first (page.freeSlot?_eq ▸ hfree)
    rw [Page.rows_markDirty, Page.rows_fill, List.getElem?_set_ne, hrow]
    rintro rfl
    rw [hrow] at hnone
    cases hnone
  | @delete txn other page hnamed hcached _ =>
    apply hd.replacing hid hcached
    intro heq hrow
    rw [Page.rows_markDirty, Page.rows_free, List.getElem?_set_ne, hrow]
    -- The deleted record is on the same page, so its slot is another one.
    intro hslot
    apply hkeep
    have hsame : record = other := by
      cases record
      cases other
      cases heq
      cases UInt16.toNat_inj.mp hslot
      rfl
    rwa [hsame]
  | append hother hlast => exact hd.appending h hother hlast
  | discard id =>
    refine ⟨hd.registered, hd.counted, hd.disk, ?_⟩
    rw [rowsAt_without]
    split
    · exact hd.disk
    · exact hd.seen

theorem Durable.steps {erased : RecordId → Prop} {db db' : Database} {file : TableFile}
    {record : RecordId} {row : List Field} (hd : Durable db file record row) (h : db.Coherent)
    (hkeep : ¬ erased record) (hsteps : ReflTransGen (Step erased) db db') :
    Durable db' file record row := by
  induction hsteps with
  | refl => exact hd
  | tail hfirst hstep ih => exact ih.step (h.steps hfirst) hkeep hstep

/-- No call of the run succeeds in deleting the record. -/
def Spares (record : RecordId) : List Call → Database → Prop
  | [], _ => True
  | call :: calls, db => ¬ call.Erases db record ∧ Spares record calls (call.leaves db)

theorem Durable.run {db : Database} {file : TableFile} {record : RecordId} {row : List Field}
    (hd : Durable db file record row) (h : db.Coherent) {calls : List Call}
    (hcalls : ∀ call ∈ calls, call.EditsTuples) (hsmall : StaysSmall calls db)
    (hspares : Spares record calls db) : Durable (RowStore.run calls db) file record row := by
  induction calls generalizing db with
  | nil => exact hd
  | cons call calls ih =>
    have hsteps := Call.leaves_steps (hcalls call List.mem_cons_self) h (call.intoSmall_of_small hsmall.1)
    apply ih (hd.steps h hspares.1 hsteps) (h.steps hsteps)
      (fun other hmem => hcalls other (List.mem_cons_of_mem _ hmem)) hsmall.2 hspares.2

theorem Coherent.rowsOnDisk_writeBack {db db' : Database} (h : db.Coherent) {id : PageId}
    {wrote : Bool} (hback : Database.writeBack id db = .ok wrote db') {file : TableFile}
    (hfile : db.catalog.file file.id = .ok file) (n : PageNo) :
    file.rowsOnDisk db'.volume n =
      if ⟨file.id, n⟩ = id then db.rowsAt file n else file.rowsOnDisk db.volume n := by
  rcases writeBack_cases id db with ⟨hsame, hclean⟩ | ⟨w, hwrite⟩ | ⟨e, herror⟩
  · rw [hsame] at hback
    cases hback
    split
    · next hid =>
      rw [h.rowsAt_of_clean hfile (by rwa [hid])]
    · rfl
  · rw [hwrite] at hback
    cases hback
    rw [w.rowsOnDisk h hfile]
    split
    · next hid =>
      subst hid
      rw [rowsAt_of_cached w.cached]
    · rfl
  · rw [herror] at hback
    cases hback

/-- Writing pages back puts on disk what readers see of them, and keeps all other pages as they are,
on disk and in the pool. -/
theorem Coherent.writeAll_ok {db db' : Database} (h : db.Coherent) {ids : List PageId}
    (hwrite : writeAll ids db = .ok () db') :
    (∀ file, db.catalog.file file.id = .ok file → ∀ n, file.rowsOnDisk db'.volume n =
      if ⟨file.id, n⟩ ∈ ids then db.rowsAt file n else file.rowsOnDisk db.volume n) ∧
      ∀ id, id ∉ ids → db'.pool.page? id = db.pool.page? id := by
  induction ids generalizing db with
  | nil =>
    cases hwrite
    exact ⟨fun file _ n => (if_neg List.not_mem_nil).symm, fun id _ => rfl⟩
  | cons first ids ih =>
    rw [writeAll_cons] at hwrite
    obtain ⟨wrote, middle, hback, hrest⟩ := bind_eq_ok.mp hwrite
    have hpages := writeBack_pages first db
    rw [after_of_ok hback] at hpages
    obtain ⟨hcoherent, hsame⟩ := h.pages hpages
    obtain ⟨hdisk, hpool⟩ := ih hcoherent hrest
    constructor
    · intro file hfile n
      rw [hdisk file (by rwa [hsame.tables.catalog]), hsame.rows file hfile,
        h.rowsOnDisk_writeBack hback hfile]
      by_cases hmem : (⟨file.id, n⟩ : PageId) ∈ ids
      · rw [if_pos hmem, if_pos (List.mem_cons_of_mem _ hmem)]
      · rw [if_neg hmem]
        by_cases hid : (⟨file.id, n⟩ : PageId) = first
        · rw [if_pos hid, if_pos (by rw [hid]; exact List.mem_cons_self)]
        · rw [if_neg hid, if_neg (fun h => (List.mem_cons.mp h).elim hid hmem)]
    · intro id hid
      rw [List.mem_cons, not_or] at hid
      rw [hpool id hid.2]
      rcases writeBack_cases first db with ⟨hstay, _⟩ | ⟨w, hwrote⟩ | ⟨e, herror⟩
      · rw [hstay] at hback
        cases hback
        rfl
      · rw [hwrote] at hback
        cases hback
        rw [w.page?_result, if_neg hid.1]
      · rw [herror] at hback
        cases hback

/-- The pages of a transaction are the cached pages that it changed last. -/
theorem mem_dirtiedBy_iff {pool : Pool} (h : pool.InOrder) (txn : TransactionId) (id : PageId) :
    id ∈ (pool.dirtiedBy txn).map Prod.fst ↔
      ∃ page, pool.page? id = some page ∧ page.dirtiedBy = some txn := by
  rw [List.mem_map]
  constructor
  · rintro ⟨⟨key, frame⟩, hmem, rfl⟩
    obtain ⟨hentry, hmark⟩ := List.mem_filter.mp hmem
    exact ⟨frame.page, h.page?_of_mem hentry, by simpa using hmark⟩
  · rintro ⟨page, hpage, hmark⟩
    obtain ⟨frame, hframe, rfl⟩ := Option.map_eq_some_iff.mp hpage
    refine ⟨(id, frame), List.mem_filter.mpr ⟨Assoc.mem_entries_of_get? hframe, ?_⟩, rfl⟩
    simpa using hmark

theorem foldl_without_page? (ids : List PageId) (db : Database) (id : PageId) :
    (ids.foldl without db).pool.page? id = if id ∈ ids then none else db.pool.page? id := by
  induction ids generalizing db with
  | nil => rw [if_neg List.not_mem_nil]; rfl
  | cons first ids ih =>
    rw [List.foldl_cons, ih]
    change (if id ∈ ids then none else (db.pool.drop first).page? id) = _
    rw [Pool.page?_drop]
    by_cases hmem : id ∈ ids
    · rw [if_pos hmem, if_pos (List.mem_cons_of_mem _ hmem)]
    · rw [if_neg hmem]
      by_cases hid : id = first
      · rw [if_pos hid, if_pos (by rw [hid]; exact List.mem_cons_self)]
      · rw [if_neg hid, if_neg (fun h => (List.mem_cons.mp h).elim hid hmem)]

theorem foldl_without_volume (ids : List PageId) (db : Database) :
    (ids.foldl without db).volume = db.volume ∧ (ids.foldl without db).catalog = db.catalog := by
  induction ids generalizing db with
  | nil => exact ⟨rfl, rfl⟩
  | cons first ids ih => exact ih (db.without first)

/-- The page was last changed by another transaction, and this is not on disk yet. -/
def MarkedByOther (db : Database) (txn : TransactionId) (id : PageId) : Prop :=
  ∃ page other, db.pool.page? id = some page ∧ page.dirtiedBy = some other ∧ other ≠ txn

theorem paging_commit {db db' : Database} {txn : TransactionId}
    (hcommit : complete txn true db = .ok () db') : ReflTransGen Paging db db' := by
  rw [complete_commit] at hcommit
  have hpages := writeAll_pages ((db.pool.dirtiedBy txn).map Prod.fst) db
  rwa [after_of_ok hcommit] at hpages

theorem MarkedByOther.not_mem {db : Database} {txn : TransactionId} {id : PageId}
    (h : db.MarkedByOther txn id) (hin : db.pool.InOrder) :
    id ∉ (db.pool.dirtiedBy txn).map Prod.fst := by
  obtain ⟨page, other, hcached, hmark, hne⟩ := h
  rw [mem_dirtiedBy_iff hin]
  rintro ⟨found, hfound, hfoundMark⟩
  rw [hcached, Option.some.injEq] at hfound
  rw [← hfound, hmark, Option.some.injEq] at hfoundMark
  exact hne hfoundMark

theorem isDirty_eq_false_of_not_mem {db : Database} {txn : TransactionId} {id : PageId}
    (hin : db.pool.InOrder) (hout : id ∉ (db.pool.dirtiedBy txn).map Prod.fst)
    (hother : ¬ db.MarkedByOther txn id) {page : Page} (hcached : db.pool.page? id = some page) :
    page.isDirty = false := by
  rw [mem_dirtiedBy_iff hin] at hout
  cases hmark : page.dirtiedBy with
  | none =>
    rw [Page.isDirty, hmark]
    rfl
  | some other =>
    by_cases hsame : other = txn
    · exact absurd ⟨page, hcached, by rw [hmark, hsame]⟩ hout
    · exact absurd ⟨page, other, hcached, hmark, hsame⟩ hother

theorem Coherent.rowsOnDisk_commit {db db' : Database} (h : db.Coherent) {txn : TransactionId}
    (hcommit : complete txn true db = .ok () db') {file : TableFile}
    (hfile : db.catalog.file file.id = .ok file) (n : PageNo) :
    (¬ db.MarkedByOther txn ⟨file.id, n⟩ → file.rowsOnDisk db'.volume n = db.rowsAt file n) ∧
      (db.MarkedByOther txn ⟨file.id, n⟩ →
        file.rowsOnDisk db'.volume n = file.rowsOnDisk db.volume n) := by
  obtain ⟨hdisk, _⟩ := h.writeAll_ok hcommit
  rw [hdisk file hfile]
  constructor
  · intro hother
    split
    · rfl
    · next hout =>
      rw [h.rowsAt_of_clean hfile]
      intro page hcached
      exact isDirty_eq_false_of_not_mem h.inOrder hout hother hcached
  · intro hother
    rw [if_neg (hother.not_mem h.inOrder)]

theorem volume_abort (txn : TransactionId) (db : Database) :
    ((Call.complete txn false).leaves db).volume = db.volume ∧
      ((Call.complete txn false).leaves db).catalog = db.catalog := by
  have hleaves : (Call.complete txn false).leaves db = _ := after_of_ok (complete_abort txn db)
  rw [hleaves]
  exact foldl_without_volume _ db

theorem Coherent.mem_dropped {db : Database} (h : db.Coherent) {txn : TransactionId} {id : PageId}
    {page : Page} (hcached : db.pool.page? id = some page) (hmark : page.dirtiedBy = some txn) :
    id ∈ (db.pool.dirtiedBy txn).map fun entry => entry.2.page.id := by
  obtain ⟨home, hsound⟩ := h.cached _ page hcached
  obtain ⟨frame, hframe, rfl⟩ := Option.map_eq_some_iff.mp hcached
  refine List.mem_map.mpr ⟨(id, frame), List.mem_filter.mpr ⟨?_, ?_⟩, hsound.identified⟩
  · exact Assoc.mem_entries_of_get? hframe
  · simpa using hmark

theorem Coherent.rowsAt_abort {db : Database} (h : db.Coherent) {txn : TransactionId} {file : TableFile}
    {n : PageNo} {page : Page} (hcached : db.pool.page? ⟨file.id, n⟩ = some page)
    (hmark : page.dirtiedBy = some txn) :
    ((Call.complete txn false).leaves db).rowsAt file n = file.rowsOnDisk db.volume n := by
  have hleaves : (Call.complete txn false).leaves db = _ := after_of_ok (complete_abort txn db)
  rw [rowsAt_of_missing, (volume_abort txn db).1]
  rw [hleaves, foldl_without_page?, if_pos (h.mem_dropped hcached hmark)]

theorem diskRow?_eq_some_iff {db : Database} {record : RecordId} {file : TableFile}
    (hfile : db.catalog.file record.page.table = .ok file) (row : List Field) :
    db.diskRow? record = some row ↔
      (file.rowsOnDisk db.volume record.page.number)[record.slot.toNat]? = some (some row) := by
  rw [diskRow?, hfile]
  exact Option.join_eq_some_iff

theorem Coherent.durable_of_commit {db db' : Database} (h : db.Coherent) {txn : TransactionId}
    (hcommit : complete txn true db = .ok () db') {file : TableFile} {record : RecordId}
    {row : List Field} (hfile : db.catalog.file record.page.table = .ok file)
    (hcounted : record.page.number.toNat < file.pageTotal db.volume)
    (hseen : (db.rowsAt file record.page.number)[record.slot.toNat]? = some (some row))
    (hdisk : db.MarkedByOther txn record.page → db.diskRow? record = some row) :
    Durable db' file record row := by
  obtain ⟨_, hsame⟩ := h.pages (paging_commit hcommit)
  have hid := h.named _ _ hfile
  have hregistered := h.registered hfile
  have hplace : (⟨file.id, record.page.number⟩ : PageId) = record.page := by rw [hid]
  obtain ⟨hwritten, hleft⟩ := h.rowsOnDisk_commit hcommit hregistered record.page.number
  rw [hplace] at hwritten hleft
  constructor
  case registered => rwa [hsame.tables.catalog]
  case counted => rwa [hsame.pages file hregistered]
  case disk =>
    by_cases hother : db.MarkedByOther txn record.page
    · rw [hleft hother]
      exact (diskRow?_eq_some_iff hfile row).mp (hdisk hother)
    · rw [hwritten hother]
      exact hseen
  case seen => rwa [hsame.rows file hregistered]

theorem Coherent.diskRow?_of_abort {db : Database} (h : db.Coherent) (hsmall : db.Small)
    {txn : TransactionId} {record : RecordId} {row : List Field} {file : TableFile} {page : Page}
    (hfile : db.catalog.file record.page.table = .ok file)
    (hcached : db.pool.page? record.page = some page) (hmark : page.dirtiedBy = some txn)
    (hsurvives : ∀ more, (∀ call ∈ more, call.EditsTuples) → StaysSmall more db →
      Spares record more db → (run more db).Returns record row) : db.diskRow? record = some row := by
  obtain ⟨hvolume, hcatalog⟩ := volume_abort txn db
  have hsmall' : ((Call.complete txn false).leaves db).Small :=
    hsmall.of_pageTotal hcatalog fun _ _ _ => by rw [hvolume]
  have hedits : (Call.complete txn false).EditsTuples := trivial
  have hcoherent' := h.steps (Call.leaves_steps hedits h (Call.intoSmall_of_small _ hsmall))
  have hreturns := hsurvives [.complete txn false] (by simp [hedits]) ⟨hsmall, hsmall'⟩ ⟨id, trivial⟩
  have hfile' : ((Call.complete txn false).leaves db).catalog.file record.page.table = .ok file := by
    rwa [hcatalog]
  obtain ⟨_, hrow⟩ := (hcoherent'.mem_scanned hsmall' hfile' row).mp hreturns
  have hplace : (⟨file.id, record.page.number⟩ : PageId) = record.page := by rw [h.named _ _ hfile]
  rw [h.rowsAt_abort (by rw [hplace, hcached]) hmark] at hrow
  exact (diskRow?_eq_some_iff hfile row).mpr hrow

/-- A row of a page that another transaction has marked is lost by the abort of that transaction, unless
it is on disk already. -/
theorem Coherent.diskRow?_of_survival {db db' : Database} (h : db.Coherent) (hsmall : db.Small)
    {txn : TransactionId} (hcommit : complete txn true db = .ok () db') {record : RecordId}
    {row : List Field} {file : TableFile} (hfile : db.catalog.file record.page.table = .ok file)
    (hsurvives : ∀ more, (∀ call ∈ more, call.EditsTuples) → StaysSmall more db' →
      Spares record more db' → (run more db').Returns record row)
    (hother : db.MarkedByOther txn record.page) : db.diskRow? record = some row := by
  obtain ⟨hcoherent, hsame⟩ := h.pages (paging_commit hcommit)
  have hid := h.named _ _ hfile
  have hregistered := h.registered hfile
  have hplace : (⟨file.id, record.page.number⟩ : PageId) = record.page := by rw [hid]
  have hfile' : db'.catalog.file record.page.table = .ok file := by rwa [hsame.tables.catalog]
  -- The commit leaves the page with its mark, and its image on disk.
  have hleft := (h.rowsOnDisk_commit hcommit hregistered record.page.number).2
  rw [hplace] at hleft
  have hstill := (h.writeAll_ok hcommit).2 record.page (hother.not_mem h.inOrder)
  obtain ⟨page, other, hcached, hmark, hne⟩ := hother
  have hdisk := hcoherent.diskRow?_of_abort (hsmall.of_sameRows h hsame) hfile'
    (hstill.trans hcached) hmark hsurvives
  rw [diskRow?_eq_some_iff hfile', hleft ⟨page, other, hcached, hmark, hne⟩] at hdisk
  exact (diskRow?_eq_some_iff hfile row).mpr hdisk

/-- After a successful commit a slot has on disk what readers see, and a row survives every run that
does not delete it, exactly if another transaction had not marked the page or this was on disk
before. -/
theorem commit_durable_iff {start : Database} (h : start.Fresh) {calls : List Call}
    (hcalls : ∀ call ∈ calls, call.EditsTuples) (hsmall : StaysSmall calls start)
    {txn : TransactionId} {db' : Database}
    (hcommit : complete txn true (run calls start) = .ok () db') :
    (∀ file, (run calls start).catalog.file file.id = .ok file → ∀ n (slot : Nat),
      ((file.rowsOnDisk db'.volume n)[slot]? = ((run calls start).rowsAt file n)[slot]? ↔
        ((run calls start).MarkedByOther txn ⟨file.id, n⟩ →
          (file.rowsOnDisk (run calls start).volume n)[slot]? =
            ((run calls start).rowsAt file n)[slot]?))) ∧
      ∀ record row, (run calls start).Returns record row →
        ((∀ more, (∀ call ∈ more, call.EditsTuples) → StaysSmall more db' → Spares record more db' →
            (run more db').Returns record row) ↔
          ((run calls start).MarkedByOther txn record.page →
            (run calls start).diskRow? record = some row)) := by
  have hcoherent := coherent_run hcalls h.coherent hsmall
  have hlast := hsmall.last
  generalize run calls start = db at hcommit hcoherent hlast ⊢
  constructor
  · intro file hfile n slot
    obtain ⟨hwritten, hleft⟩ := hcoherent.rowsOnDisk_commit hcommit hfile n
    constructor
    · intro hsame hother
      rw [← hleft hother, hsame]
    · intro hdisk
      by_cases hother : db.MarkedByOther txn ⟨file.id, n⟩
      · rw [hleft hother, hdisk hother]
      · rw [hwritten hother]
  · intro record row hreturns
    cases hfile : db.catalog.file record.page.table with
    | error e =>
      rw [Returns, scanned, hfile] at hreturns
      cases hreturns
    | ok file =>
      obtain ⟨hcounted, hseen⟩ := (hcoherent.mem_scanned hlast hfile row).mp hreturns
      constructor
      · exact hcoherent.diskRow?_of_survival hlast hcommit hfile
      · intro hdisk more hmore hsmallMore hspares
        have hdurable := hcoherent.durable_of_commit hcommit hfile hcounted hseen hdisk
        have hcoherent' := (hcoherent.pages (paging_commit hcommit)).1
        have hfinal := hdurable.run hcoherent' hmore hsmallMore hspares
        exact ((coherent_run hmore hcoherent' hsmallMore).mem_scanned hsmallMore.last
          hfinal.registered row).mpr ⟨hfinal.counted, hfinal.seen⟩

/-- A table of one integer column, with room for four frames. -/
def oneColumn : Database :=
  withTable { pageSize := 32, poolPages := 4 } "t" ⟨[{ type := .integer }], List.cons_ne_nil _ _⟩

/-- The insertion of one integer. -/
def insertInteger (txn : TransactionId) (value : Int32) : Call :=
  .insert txn (.file "t") ⟨⟨[{ type := .integer }], List.cons_ne_nil _ _⟩, [.int value], none⟩

theorem insertInteger_editsTuples (txn : TransactionId) (value : Int32) :
    (insertInteger txn value).EditsTuples := by
  have hbuilt : Tuple.ofFields ⟨[{ type := .integer }], List.cons_ne_nil _ _⟩ [.int value] =
      .ok ⟨⟨[{ type := .integer }], List.cons_ne_nil _ _⟩, [.int value], none⟩ := rfl
  exact Tuple.Built.ofFields hbuilt

/-- A transaction that shares no page makes its row durable. -/
theorem commit_durable_iff_alone :
    let calls := [insertInteger ⟨1⟩ 7]
    let commit := Call.complete ⟨1⟩ true
    oneColumn.Fresh ∧ (∀ call ∈ calls, call.EditsTuples) ∧ StaysSmall calls oneColumn ∧
      complete ⟨1⟩ true (run calls oneColumn) = .ok () (commit.leaves (run calls oneColumn)) ∧
      (run calls oneColumn).Returns ⟨⟨.file "t", 0⟩, 0⟩ [.int 7] ∧
      ∀ more, (∀ call ∈ more, call.EditsTuples) →
        StaysSmall more (commit.leaves (run calls oneColumn)) →
        Spares ⟨⟨.file "t", 0⟩, 0⟩ more (commit.leaves (run calls oneColumn)) →
        (run more (commit.leaves (run calls oneColumn))).Returns ⟨⟨.file "t", 0⟩, 0⟩ [.int 7] := by
  intro calls commit
  have hfresh : oneColumn.Fresh := fresh_withTable _ _ _
  have hcalls : ∀ call ∈ calls, call.EditsTuples := by
    intro call hmem
    rw [List.mem_singleton.mp hmem]
    exact insertInteger_editsTuples ⟨1⟩ 7
  have hsmall : StaysSmall calls oneColumn := by decide +kernel
  have hcommit : complete ⟨1⟩ true (run calls oneColumn) =
      .ok () (commit.leaves (run calls oneColumn)) := rfl
  have hreturns : (run calls oneColumn).Returns ⟨⟨.file "t", 0⟩, 0⟩ [.int 7] := by decide +kernel
  refine ⟨hfresh, hcalls, hsmall, hcommit, hreturns, ?_⟩
  apply ((commit_durable_iff hfresh hcalls hsmall hcommit).2 _ _ hreturns).mpr
  rintro ⟨page, other, hcached, hmark, hother⟩
  have hmine : ((run calls oneColumn).pool.page? ⟨.file "t", 0⟩).bind Page.dirtiedBy = some ⟨1⟩ := by
    decide +kernel
  rw [hcached, Option.bind_some, hmark, Option.some.injEq] at hmine
  exact absurd hmine hother

/-- A committed row is lost when another transaction inserts into its page before the commit and
aborts after it. -/
theorem committed_row_lost :
    let db := run [insertInteger ⟨1⟩ 7, insertInteger ⟨2⟩ 8] oneColumn
    let committed := (Call.complete ⟨1⟩ true).leaves db
    db.Returns ⟨⟨.file "t", 0⟩, 0⟩ [.int 7] ∧ (Call.complete ⟨1⟩ true).Succeeds db ∧
      committed.diskRow? ⟨⟨.file "t", 0⟩, 0⟩ = none ∧
      ¬ ((Call.complete ⟨2⟩ false).leaves committed).Returns ⟨⟨.file "t", 0⟩, 0⟩ [.int 7] := by
  intro db committed
  have hcommit : (Call.complete ⟨1⟩ true).Succeeds db := ⟨committed, rfl⟩
  have hreturns : db.Returns ⟨⟨.file "t", 0⟩, 0⟩ [.int 7] := by decide +kernel
  have hdisk : committed.diskRow? ⟨⟨.file "t", 0⟩, 0⟩ = none := by decide +kernel
  have hlost : ¬ ((Call.complete ⟨2⟩ false).leaves committed).Returns ⟨⟨.file "t", 0⟩, 0⟩ [.int 7] := by
    decide +kernel
  exact ⟨hreturns, hcommit, hdisk, hlost⟩

end Database
end RowStore
