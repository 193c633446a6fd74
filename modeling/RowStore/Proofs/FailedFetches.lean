import RowStore.Proofs.Evictions
import RowStore.Proofs.Requests

/-!
# Fetches that fail

A page that is not cached is read, and then the page in front of a full queue has to go. The table of the
page, its number, the frames of the pool and the page in front can each be the reason for a failure. They
all show before anything but a counter has changed: a page that cannot be written keeps its frame, its
mark and its place in the queue, and the page that was read is forgotten.
-/
namespace RowStore

theorem Catalog.file_eq_error {catalog : Catalog} {table : TableId} {e : StoreError}
    (h : catalog.file table = .error e) : e = .tableNotFound table := by
  rw [file, entry] at h
  cases hentry : catalog.tables.get? table with
  | some entry =>
    rw [hentry] at h
    cases h
  | none =>
    rw [hentry] at h
    cases h
    rfl

/-- Why a dirty page cannot be written: its table is not registered, a tuple does not fit its columns, or
its image does not have the page size of the registered file. -/
inductive Catalog.Unwritable (catalog : Catalog) (page : Page) : Fault → Prop
  | forgotten (unregistered : catalog.file page.id.table = .error (.tableNotFound page.id.table)) :
      Unwritable catalog page (.error (.tableNotFound page.id.table))
  | unencoded {file : TableFile} {e : StoreError} (registered : catalog.file page.id.table = .ok file)
      (refused : page.toImage = .error e) : Unwritable catalog page (.error e)
  | missized {file : TableFile} {image : Bytes} (registered : catalog.file page.id.table = .ok file)
      (encoded : page.toImage = .ok image) (length : image.length ≠ file.pageSize) :
      Unwritable catalog page (.violation (.wrongLength file.pageSize image.length))

namespace Database

/-- Why a page that is not cached is not served: its table is not registered, its file does not count it,
the pool has no frames, or a dirty page that cannot be written has to make room for it. -/
inductive Refuses (db : Database) (id : PageId) : Fault → Prop
  | forgotten (missing : db.pool.page? id = none)
      (unregistered : db.catalog.file id.table = .error (.tableNotFound id.table)) :
      Refuses db id (.error (.tableNotFound id.table))
  | uncounted {file : TableFile} (missing : db.pool.page? id = none)
      (registered : db.catalog.file id.table = .ok file) (behind : file.numPages db.volume ≤ id.number) :
      Refuses db id (.error (.pageNotFound id (file.numPages db.volume)))
  | frameless {file : TableFile} (missing : db.pool.page? id = none)
      (registered : db.catalog.file id.table = .ok file) (counted : id.number < file.numPages db.volume)
      (nothing : db.pool.capacity = 0) : Refuses db id (.error (.poolExhausted 0))
  | obstructed {file : TableFile} {page : Page} {fault : Fault}
      (registered : db.catalog.file id.table = .ok file) (counted : id.number < file.numPages db.volume)
      (front : db.Obstructs page id) (stuck : db.catalog.Unwritable page fault) : Refuses db id fault

/-- The cached pages with their marks and their order, the files and the tables are as they were. -/
structure Undisturbed (db db' : Database) : Prop where
  pool : db'.pool = db.pool
  volume : db'.volume = db.volume
  setup : SameSetup db db'

variable {db db' : Database}

theorem Undisturbed.refl (db : Database) : Undisturbed db db := ⟨rfl, rfl, .refl db⟩

theorem undisturbed_countTransfer (db : Database) (file : TableFile) (change : Traffic → Traffic) :
    Undisturbed db (db.countTransfer file change) := ⟨rfl, rfl, rfl, rfl, rfl⟩

theorem undisturbed_of_fetch_error {id : PageId} {fault : Fault} (h : fetch id db = .error fault db') :
    Undisturbed db db' := by
  rcases fetch_cases id db with ⟨_, _, hrun⟩ | ⟨_, _, _, _, hrun⟩ | ⟨_, hrun⟩ | ⟨file, _, hrun⟩ <;>
    rw [hrun] at h <;> cases h
  · exact .refl db
  · exact undisturbed_countTransfer db file _

theorem writePage_of_home {file : TableFile} {page : Page} (hhome : page.id.table = file.id)
    (db : Database) : writePage file page db =
      match page.toImage with
      | .error e => .error (.error e) db
      | .ok image => writeImage file page.id.number image db := by
  cases himage : page.toImage <;>
    simp only [writePage, Db.bind_run, hhome, if_true, himage, lift]

theorem writeBack_of_registered {id : PageId} {page : Page} (hcached : db.pool.page? id = some page)
    (hdirty : page.isDirty = true) {file : TableFile} (hfile : db.catalog.file page.id.table = .ok file) :
    writeBack id db =
      match writePage file page db with
      | .ok _ db => .ok true { db with pool := db.pool.modify id Page.markClean }
      | .error e db => .error e db := by
  simp only [writeBack, Db.bind_run, Db.get_run, hcached, hdirty, if_true, fileOf_of_registered hfile]
  cases writePage file page db <;> rfl

theorem writeBack_of_unwritable {page : Page} {fault : Fault} (h : db.catalog.Unwritable page fault)
    (hnamed : ∀ table file, db.catalog.file table = .ok file → file.id = table)
    (hcached : db.pool.page? page.id = some page) (hdirty : page.isDirty = true) :
    writeBack page.id db = .error fault db := by
  cases h with
  | forgotten hunregistered =>
    simp only [writeBack, Db.bind_run, Db.get_run, hcached, hdirty, if_true,
      fileOf_of_missing hunregistered]
  | unencoded hfile hrefused =>
    rw [writeBack_of_registered hcached hdirty hfile, writePage_of_home (hnamed _ _ hfile).symm]
    simp only [hrefused]
  | missized hfile hencoded hlength =>
    rw [writeBack_of_registered hcached hdirty hfile, writePage_of_home (hnamed _ _ hfile).symm]
    simp only [hencoded, writeImage_of_wrongLength hlength]

theorem unwritable_of_writeBack {page : Page} {fault : Fault}
    (hnamed : ∀ table file, db.catalog.file table = .ok file → file.id = table)
    (hcached : db.pool.page? page.id = some page) (h : writeBack page.id db = .error fault db') :
    page.isDirty = true ∧ db.catalog.Unwritable page fault := by
  cases hdirty : page.isDirty with
  | false =>
    rw [writeBack_of_clean hcached hdirty] at h
    cases h
  | true =>
    refine ⟨rfl, ?_⟩
    cases hfile : db.catalog.file page.id.table with
    | error e =>
      have he := Catalog.file_eq_error hfile
      subst he
      have hstuck : db.catalog.Unwritable page _ := .forgotten hfile
      rw [writeBack_of_unwritable hstuck hnamed hcached hdirty] at h
      cases h
      exact hstuck
    | ok file =>
      rw [writeBack_of_registered hcached hdirty hfile, writePage_of_home (hnamed _ _ hfile).symm] at h
      cases himage : page.toImage with
      | error e =>
        simp only [himage] at h
        cases h
        exact .unencoded hfile himage
      | ok image =>
        simp only [himage] at h
        by_cases hlength : image.length = file.pageSize
        · rw [writeImage_of_length hlength] at h
          cases h
        · rw [writeImage_of_wrongLength hlength] at h
          cases h
          exact .missized hfile himage hlength

theorem Orderly.makeRoom_error_iff (h : db.Orderly) {fault : Fault} :
    (∃ db', makeRoom db = .error fault db') ↔
      (db.pool.capacity = 0 ∧ fault = .error (.poolExhausted 0)) ∨
        ∃ page, db.pool.capacity ≤ db.pool.size ∧ db.pool.queue.victim? = some page.id ∧
          db.pool.page? page.id = some page ∧ page.isDirty = true ∧ db.catalog.Unwritable page fault := by
  constructor
  · rintro ⟨db', hroom⟩
    by_cases hfull : db.pool.capacity ≤ db.pool.size
    case neg =>
      rw [makeRoom_of_room (Nat.lt_of_not_le hfull)] at hroom
      cases hroom
    case pos =>
      rw [makeRoom_of_full hfull] at hroom
      cases hqueue : db.pool.queue.order with
      | nil =>
        rw [h.inOrder.size_eq, hqueue] at hfull
        have hnothing : db.pool.capacity = 0 := Nat.le_zero.mp hfull
        simp only [evict, Db.bind_run, Db.get_run, Fifo.victim?, hqueue, List.head?_nil, Db.throw_run,
          hnothing] at hroom
        cases hroom
        exact Or.inl ⟨hnothing, rfl⟩
      | cons victim rest =>
        have hfront : db.pool.queue.victim? = some victim := by rw [Fifo.victim?, hqueue, List.head?_cons]
        cases hback : writeBack victim db with
        | ok wrote middle =>
          rw [evict_of_writeBack hqueue hback] at hroom
          cases hroom
        | error e middle =>
          simp only [evict, Db.bind_run, Db.get_run, hfront, hback] at hroom
          cases hroom
          cases hcached : db.pool.page? victim with
          | none =>
            rw [writeBack_of_missing hcached] at hback
            cases hback
          | some page =>
            have hid := (h.cached victim page hcached).identified
            subst hid
            obtain ⟨hdirty, hstuck⟩ := unwritable_of_writeBack h.named hcached hback
            exact Or.inr ⟨page, hfull, hfront, hcached, hdirty, hstuck⟩
  · rintro (⟨hnothing, rfl⟩ | ⟨page, hfull, hfront, hcached, hdirty, hstuck⟩)
    · have hempty : db.pool.queue.order = [] := by
        have hsize := h.inOrder.size_le
        rw [hnothing] at hsize
        exact List.eq_nil_of_length_eq_zero (Nat.le_zero.mp hsize)
      refine ⟨db, ?_⟩
      rw [makeRoom_of_full (hnothing ▸ Nat.zero_le _)]
      simp only [evict, Db.bind_run, Db.get_run, Fifo.victim?, hempty, List.head?_nil, Db.throw_run,
        hnothing]
    · refine ⟨db, ?_⟩
      rw [makeRoom_of_full hfull]
      simp only [evict, Db.bind_run, Db.get_run, hfront, writeBack_of_unwritable hstuck h.named hcached hdirty]

theorem readPage_of_uncounted {file : TableFile} {id : PageId} (h : ¬ id.number < file.numPages db.volume) :
    readPage file id db = .error (.error (.pageNotFound id (file.numPages db.volume))) db := by
  have hcheck : file.checkPage db.volume id = .error (.pageNotFound id (file.numPages db.volume)) := by
    rw [TableFile.checkPage]
    exact if_neg fun hboth => h hboth.2
  simp only [readPage, hcheck]

theorem Orderly.exists_load (h : db.Orderly) {id : PageId} {file : TableFile}
    (hfile : db.catalog.file id.table = .ok file) (hcounted : id.number < file.numPages db.volume) :
    ∃ load : Load db id, load.file = file := by
  obtain ⟨page, hpage, _⟩ := file.pageOnDisk_eq_ok db.volume id.number
  have hcheck := TableFile.checkPage_eq_ok.mpr ⟨(h.named _ _ hfile).symm, hcounted⟩
  exact ⟨⟨file, page, hfile, hcheck, hpage⟩, rfl⟩

theorem fetch_error_iff_makeRoom {id : PageId} (load : Load db id) (hmiss : db.pool.frames.get? id = none)
    (fault : Fault) :
    (∃ db', fetch id db = .error fault db') ↔ ∃ db', makeRoom load.read = .error fault db' := by
  rw [fetch_of_missing hmiss load.registered, readPage_of_counted load.counted load.parsed]
  change (∃ db', install load.page load.read = .error fault db') ↔ _
  rw [install, Db.bind_run]
  cases makeRoom load.read <;> simp [place]

section
variable {id : PageId} {fault : Fault}

theorem not_refuses_of_cached {page : Page} (hcached : db.pool.page? id = some page) :
    ¬ db.Refuses id fault := by
  rintro (⟨hmissing, _⟩ | ⟨hmissing, _, _⟩ | ⟨hmissing, _, _, _⟩ | ⟨_, _, ⟨hmissing, _, _, _, _⟩, _⟩) <;>
    rw [hcached] at hmissing <;> cases hmissing

theorem refuses_iff_of_unregistered (hmissing : db.pool.page? id = none)
    (hfile : db.catalog.file id.table = .error (.tableNotFound id.table)) :
    db.Refuses id fault ↔ fault = .error (.tableNotFound id.table) := by
  constructor
  · rintro (_ | ⟨_, hok, _⟩ | ⟨_, hok, _, _⟩ | ⟨hok, _, _, _⟩)
    · rfl
    all_goals rw [hfile] at hok; cases hok
  · rintro rfl
    exact .forgotten hmissing hfile

variable {file : TableFile} (hfile : db.catalog.file id.table = .ok file)
include hfile

theorem refuses_iff_of_uncounted (hmissing : db.pool.page? id = none)
    (hcounted : ¬ id.number < file.numPages db.volume) :
    db.Refuses id fault ↔ fault = .error (.pageNotFound id (file.numPages db.volume)) := by
  constructor
  · rintro (⟨_, herror⟩ | ⟨_, hok, _⟩ | ⟨_, hok, hin, _⟩ | ⟨hok, hin, _, _⟩)
    · rw [hfile] at herror
      cases herror
    · cases hfile.symm.trans hok
      rfl
    all_goals cases hfile.symm.trans hok; exact absurd hin hcounted
  · rintro rfl
    exact .uncounted hmissing hfile (UInt32.not_lt.mp hcounted)

theorem refuses_iff_of_counted (hmissing : db.pool.page? id = none)
    (hcounted : id.number < file.numPages db.volume) :
    db.Refuses id fault ↔ (db.pool.capacity = 0 ∧ fault = .error (.poolExhausted 0)) ∨
      ∃ page, db.Obstructs page id ∧ db.catalog.Unwritable page fault := by
  constructor
  · rintro (⟨_, herror⟩ | ⟨_, hok, hbehind⟩ | ⟨_, _, _, hnothing⟩ | ⟨_, _, hfront, hstuck⟩)
    · rw [hfile] at herror
      cases herror
    · cases hfile.symm.trans hok
      exact absurd hcounted (UInt32.not_lt.mpr hbehind)
    · exact Or.inl ⟨hnothing, rfl⟩
    · exact Or.inr ⟨_, hfront, hstuck⟩
  · rintro (⟨hnothing, rfl⟩ | ⟨page, hfront, hstuck⟩)
    · exact .frameless hmissing hfile hcounted hnothing
    · exact .obstructed hfile hcounted hfront hstuck

end

theorem Orderly.fetch_error_iff (h : db.Orderly) (id : PageId) (fault : Fault) :
    (∃ db', Database.fetch id db = .error fault db') ↔ db.Refuses id fault := by
  have hat (e : Fault) : (∃ db', (.error e db : EStateM.Result Fault Database Frame) = .error fault db') ↔
      fault = e := by
    simp [eq_comm]
  cases hframe : db.pool.frames.get? id with
  | some frame =>
    have hcached : db.pool.page? id = some frame.page := by rw [Pool.page?, hframe]; rfl
    rw [fetch_of_cached hframe]
    refine iff_of_false ?_ (not_refuses_of_cached hcached)
    rintro ⟨_, hrun⟩
    cases hrun
  | none =>
    have hmissing := page?_eq_none hframe
    cases hfile : db.catalog.file id.table with
    | error e =>
      have he := Catalog.file_eq_error hfile
      subst he
      rw [fetch_of_unregistered hframe hfile, hat, refuses_iff_of_unregistered hmissing hfile]
    | ok file =>
      by_cases hcounted : id.number < file.numPages db.volume
      case neg =>
        rw [fetch_of_missing hframe hfile, readPage_of_uncounted hcounted,
          refuses_iff_of_uncounted hfile hmissing hcounted]
        exact hat _
      case pos =>
        obtain ⟨load, rfl⟩ := h.exists_load hfile hcounted
        have hread : load.read.Orderly := h.turnover (.read load.file)
        rw [fetch_error_iff_makeRoom load hframe, hread.makeRoom_error_iff,
          refuses_iff_of_counted hfile hmissing hcounted]
        refine or_congr Iff.rfl (exists_congr fun page => ?_)
        constructor
        · rintro ⟨hfull, hfront, hcached, hdirty, hstuck⟩
          exact ⟨⟨hmissing, hfull, hfront, hcached, hdirty⟩, hstuck⟩
        · rintro ⟨hpage, hstuck⟩
          exact ⟨hpage.full, hpage.front, hpage.cached, hpage.dirty, hstuck⟩

/-- In every state that requests lead to, a fetch that fails leaves the cached pages, their marks and order,
the files and the tables as they were. It fails exactly where the table is not registered, the file does
not count the page, the pool has no frames, or a dirty page in front cannot be written. -/
theorem failed_fetch_undisturbed (h : db.Reachable) (id : PageId) (fault : Fault) :
    (∀ db', fetch id db = .error fault db' → Undisturbed db db') ∧
      ((∃ db', fetch id db = .error fault db') ↔ db.Refuses id fault) :=
  ⟨fun _ hfetch => undisturbed_of_fetch_error hfetch, h.orderly.fetch_error_iff id fault⟩

/-- The dirty page of a forgotten table is in the only frame. The page of another table is read, but it
cannot take the frame. -/
theorem failed_fetch_undisturbed_forgotten_table :
    let schema : Schema := ⟨[{ type := .integer }], List.cons_ne_nil _ _⟩
    let start := (Call.insert ⟨1⟩ (.file "t") ⟨schema, [.int 7], none⟩).leaves
      (withTable { pageSize := 9, poolPages := 1 } "t" schema)
    let created := after (createTable "u" "u" schema "") (after clearCatalog start)
    let db := (Call.insert ⟨1⟩ (.file "u") ⟨schema, [.int 8], none⟩).leaves created
    let fault : Fault := .error (.tableNotFound (.file "t"))
    db.Reachable ∧ db.pool.cachedPages = [⟨.file "t", 0⟩] ∧
      (db.pool.page? ⟨.file "t", 0⟩).map Page.isDirty = some true ∧
      (∃ db', fetch ⟨.file "u", 0⟩ db = .error fault db' ∧ db' ≠ db ∧ Undisturbed db db') ∧
        db.Refuses ⟨.file "u", 0⟩ fault := by
  intro schema start created db fault
  have hstart : start.Reachable :=
    (reachable_withTable _ _ _).request (.use (.call (.insert ⟨1⟩ (.file "t") ⟨schema, [.int 7], none⟩)))
      (Tuple.built_integer 7)
  have hcleared := hstart.request .clearCatalog trivial
  have hcreated := hcleared.request (.use (.create "u" "u" schema "")) trivial
  rw [Request.leaves, Request.perform, Use.perform, after_ignored] at hcreated
  have hreachable : db.Reachable :=
    hcreated.request (.use (.call (.insert ⟨1⟩ (.file "u") ⟨schema, [.int 8], none⟩)))
      (Tuple.built_integer 8)
  have hfails : outcome (fetch ⟨.file "u", 0⟩ db) = .error fault := by decide +kernel
  obtain ⟨db', hfetch⟩ := exists_error_of_outcome hfails
  obtain ⟨hleaves, hreasons⟩ := failed_fetch_undisturbed hreachable ⟨.file "u", 0⟩ fault
  refine ⟨hreachable, by decide +kernel, by decide +kernel, ⟨db', hfetch, ?_, hleaves db' hfetch⟩,
    hreasons.mp ⟨db', hfetch⟩⟩
  rw [← after_of_error hfetch]
  decide +kernel

end Database
end RowStore
