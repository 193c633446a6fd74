import RowStore.Database.View

/-!
# What operations do

For each operation of the pool one statement lists all that it can do to a database, its failures
included. The databases it can leave are named: a page read, stored, dropped, put into a new frame
or replaced in its frame.
-/
namespace RowStore
namespace Database
variable {α β : Type}

/-- The answer or the fault that a run ends with. -/
def outcome {σ : Type} : EStateM.Result Fault σ α → Except Fault α
  | .ok a _ => .ok a
  | .error e _ => .error e

theorem exists_ok_of_outcome {σ : Type} {result : EStateM.Result Fault σ α} {a : α}
    (h : outcome result = .ok a) : ∃ s, result = .ok a s := by
  cases result with
  | ok b s =>
    cases h
    exact ⟨s, rfl⟩
  | error e s => cases h

theorem exists_error_of_outcome {σ : Type} {result : EStateM.Result Fault σ α} {e : Fault}
    (h : outcome result = .error e) : ∃ s, result = .error e s := by
  cases result with
  | ok b s => cases h
  | error e s =>
    cases h
    exact ⟨s, rfl⟩

/-- The database that an operation leaves. -/
def after (operation : Db α) (db : Database) : Database :=
  match operation db with
  | .ok _ db => db
  | .error _ db => db

theorem after_of_ok {operation : Db α} {db db' : Database} {a : α} (h : operation db = .ok a db') :
    after operation db = db' := by
  rw [after, h]

theorem after_of_error {operation : Db α} {db db' : Database} {e : Fault}
    (h : operation db = .error e db') : after operation db = db' := by
  rw [after, h]

/-- The database that is left depends on the run only. -/
theorem after_congr {operation other : Db α} {db db' : Database} (h : operation db = other db') :
    after operation db = after other db' := by
  rw [after, after, h]

theorem after_bind (operation : Db α) (next : α → Db β) (db : Database) :
    after (operation >>= next) db =
      match operation db with
      | .ok a db => after (next a) db
      | .error _ db => db := by
  rw [after, Db.bind_run]
  cases operation db <;> rfl

theorem after_bind_of_trans {R : Database → Database → Prop}
    (htrans : ∀ {a b c}, R a b → R b c → R a c) {operation : Db α} {next : α → Db β} {db : Database}
    (hfirst : R db (after operation db))
    (hnext : ∀ a db', operation db = .ok a db' → R db' (after (next a) db')) :
    R db (after (operation >>= next) db) := by
  rw [after_bind]
  cases h : operation db with
  | ok a db' =>
    rw [after_of_ok h] at hfirst
    exact htrans hfirst (hnext a db' h)
  | error e db' =>
    rw [after_of_error h] at hfirst
    exact hfirst

/-- A successful sequence is a successful first operation and a successful second one. -/
theorem bind_eq_ok {operation : Db α} {next : α → Db β} {db db' : Database} {b : β} :
    (operation >>= next) db = .ok b db' ↔
      ∃ a middle, operation db = .ok a middle ∧ next a middle = .ok b db' := by
  rw [Db.bind_run]
  cases operation db with
  | ok a middle =>
    constructor
    · intro h
      exact ⟨a, middle, rfl, h⟩
    · rintro ⟨a', middle', h, hnext⟩
      cases h
      exact hnext
  | error e middle => simp

/-- All that is known of a page that has been read from disk. -/
structure Load (db : Database) (id : PageId) where
  file : TableFile
  page : Page
  registered : db.catalog.file id.table = .ok file
  counted : file.checkPage db.volume id = .ok ()
  parsed : file.pageOnDisk db.volume id.number = .ok page

/-- The database after the page was read. -/
def Load.read {db : Database} {id : PageId} (load : Load db id) : Database :=
  db.countTransfer load.file Traffic.countRead

/-- The page that was read is the page that was asked for. -/
theorem Load.page_id {db : Database} {id : PageId} (load : Load db id) : load.page.id = id := by
  obtain ⟨slots, hpage, _⟩ := Page.ofImage_eq_ok load.parsed
  rw [hpage, ← (TableFile.checkPage_eq_ok.mp load.counted).1]

theorem readPage_eq_ok {file : TableFile} {id : PageId} {db db' : Database} {page : Page}
    (h : readPage file id db = .ok page db') :
    file.checkPage db.volume id = .ok () ∧ file.pageOnDisk db.volume id.number = .ok page ∧
      db' = db.countTransfer file Traffic.countRead := by
  unfold readPage at h
  cases hcheck : file.checkPage db.volume id with
  | error e => simp [hcheck] at h
  | ok _ =>
    simp only [hcheck] at h
    cases hpage : file.pageOnDisk db.volume id.number with
    | error e => simp [lift, hpage] at h
    | ok found =>
      simp only [lift, hpage, EStateM.Result.ok.injEq] at h
      obtain ⟨rfl, rfl⟩ := h
      exact ⟨rfl, rfl, rfl⟩

theorem readPage_eq_error {file : TableFile} {id : PageId} {db db' : Database} {e : Fault}
    (h : readPage file id db = .error e db') :
    db' = db ∨ db' = db.countTransfer file Traffic.countRead := by
  unfold readPage at h
  cases hcheck : file.checkPage db.volume id with
  | error e =>
    simp only [hcheck, EStateM.Result.error.injEq] at h
    exact Or.inl h.2.symm
  | ok _ =>
    simp only [hcheck] at h
    cases hpage : file.pageOnDisk db.volume id.number with
    | error e =>
      simp only [lift, hpage, EStateM.Result.error.injEq] at h
      exact Or.inr h.2.symm
    | ok found => simp [lift, hpage] at h

theorem readPage_of_counted {file : TableFile} {id : PageId} {db : Database} {page : Page}
    (hcheck : file.checkPage db.volume id = .ok ())
    (hpage : file.pageOnDisk db.volume id.number = .ok page) :
    readPage file id db = .ok page (db.countTransfer file Traffic.countRead) := by
  unfold readPage
  simp only [hcheck, lift, hpage]

/-- The database with the image in the place of a page of the file. -/
def storing (db : Database) (file : TableFile) (page : PageNo) (image : Bytes) : Database :=
  ({ db with volume := file.pages.replace db.volume page image } : Database).countTransfer file
    Traffic.countWrite

theorem writeImage_of_length {file : TableFile} {image : Bytes} (h : image.length = file.pageSize)
    (page : PageNo) (db : Database) :
    writeImage file page image db = .ok () (db.storing file page image) := by
  have hlength : image.length = file.pages.pageSize := h
  rw [writeImage, PageFile.write, if_pos hlength]
  rfl

theorem writeImage_of_wrongLength {file : TableFile} {image : Bytes}
    (h : image.length ≠ file.pageSize) (page : PageNo) (db : Database) :
    writeImage file page image db =
      .error (.violation (.wrongLength file.pageSize image.length)) db := by
  have hlength : image.length ≠ file.pages.pageSize := h
  rw [writeImage, PageFile.write, if_neg hlength]
  rfl

/-- All that is known of a dirty page that is written to the file registered for it. -/
structure WriteBack (db : Database) (id : PageId) where
  page : Page
  file : TableFile
  image : Bytes
  cached : db.pool.page? id = some page
  dirty : page.isDirty = true
  registered : db.catalog.file page.id.table = .ok file
  home : page.id.table = file.id
  encoded : page.toImage = .ok image
  length : image.length = file.pageSize

/-- The database after the page was written. -/
def WriteBack.result {db : Database} {id : PageId} (w : WriteBack db id) : Database :=
  { db.storing w.file w.page.id.number w.image with pool := db.pool.modify id Page.markClean }

theorem writePage_of_image {file : TableFile} {page : Page} {image : Bytes}
    (hhome : page.id.table = file.id) (himage : page.toImage = .ok image)
    (hlength : image.length = file.pageSize) (db : Database) :
    writePage file page db = .ok () (db.storing file page.id.number image) := by
  have hlift : lift page.toImage db = .ok image db := by rw [himage]; rfl
  simp only [writePage, Db.bind_run, hhome, if_true, hlift, writeImage_of_length hlength]

theorem writePage_cases (file : TableFile) (page : Page) (db : Database) :
    (∃ image, page.id.table = file.id ∧ page.toImage = .ok image ∧ image.length = file.pageSize ∧
      writePage file page db = .ok () (db.storing file page.id.number image)) ∨
      ∃ e, writePage file page db = .error e db := by
  by_cases hhome : page.id.table = file.id
  · cases himage : page.toImage with
    | error e =>
      refine Or.inr ⟨.error e, ?_⟩
      have hlift : lift page.toImage db = .error (.error e) db := by rw [himage]; rfl
      simp only [writePage, Db.bind_run, hhome, if_true, hlift]
    | ok image =>
      by_cases hlength : image.length = file.pageSize
      · exact Or.inl ⟨image, hhome, rfl, hlength, writePage_of_image hhome himage hlength db⟩
      · refine Or.inr ⟨.violation (.wrongLength file.pageSize image.length), ?_⟩
        have hlift : lift page.toImage db = .ok image db := by rw [himage]; rfl
        simp only [writePage, Db.bind_run, hhome, if_true, hlift, writeImage_of_wrongLength hlength]
  · refine Or.inr ⟨.error (.tableNotFound page.id.table), ?_⟩
    simp only [writePage, Db.bind_run, hhome, if_false, Db.throw_run]

theorem WriteBack.performed {db : Database} {id : PageId} (w : WriteBack db id) :
    writeBack id db = .ok true w.result := by
  simp only [writeBack, Db.bind_run, Db.get_run, w.cached, w.dirty, if_true,
    fileOf_of_registered w.registered, writePage_of_image w.home w.encoded w.length]
  rfl

/-- A write-back finds nothing to do, or writes the page, or changes nothing. -/
theorem writeBack_cases (id : PageId) (db : Database) :
    (writeBack id db = .ok false db ∧ ∀ page, db.pool.page? id = some page → page.isDirty = false) ∨
      (∃ w : WriteBack db id, writeBack id db = .ok true w.result) ∨
      ∃ e, writeBack id db = .error e db := by
  cases hpage : db.pool.page? id with
  | none => exact Or.inl ⟨writeBack_of_missing hpage, fun page h => by cases h⟩
  | some page =>
    cases hdirty : page.isDirty with
    | false =>
      refine Or.inl ⟨writeBack_of_clean hpage hdirty, fun other h => ?_⟩
      cases h
      exact hdirty
    | true =>
      right
      cases hfile : db.catalog.file page.id.table with
      | error e =>
        refine Or.inr ⟨.error e, ?_⟩
        simp only [writeBack, Db.bind_run, Db.get_run, hpage, hdirty, if_true, fileOf_of_missing hfile]
      | ok file =>
        rcases writePage_cases file page db with ⟨image, hhome, himage, hlength, _⟩ | ⟨e, hwrite⟩
        · let w : WriteBack db id := ⟨page, file, image, hpage, hdirty, hfile, hhome, himage, hlength⟩
          exact Or.inl ⟨w, w.performed⟩
        · refine Or.inr ⟨e, ?_⟩
          simp only [writeBack, Db.bind_run, Db.get_run, hpage, hdirty, if_true,
            fileOf_of_registered hfile, hwrite]

/-- The database without the cached page. -/
def without (db : Database) (id : PageId) : Database := { db with pool := db.pool.drop id }

/-- The database with the page in a new frame. -/
def holding (db : Database) (page : Page) : Database := { db with pool := (db.pool.install page).2 }

/-- The database with another page in the frame. -/
def replacing (db : Database) (id : PageId) (page : Page) : Database :=
  { db with pool := db.pool.modify id fun _ => page }

theorem evict_of_writeBack {db db' : Database} {victim : PageId} {rest : List PageId} {wrote : Bool}
    (hfront : db.pool.queue.order = victim :: rest) (h : writeBack victim db = .ok wrote db') :
    evict db = .ok () (db'.without victim) := by
  simp only [evict, Db.bind_run, Db.get_run, Fifo.victim?, hfront, List.head?_cons, h, Db.modify_run]
  rfl

/-- An eviction drops the front of the queue, after writing it back if it is dirty, or changes
nothing. -/
theorem evict_cases (db : Database) :
    (∃ victim rest, db.pool.queue.order = victim :: rest ∧
      (((∀ page, db.pool.page? victim = some page → page.isDirty = false) ∧
          evict db = .ok () (db.without victim)) ∨
        ∃ w : WriteBack db victim, evict db = .ok () (w.result.without victim))) ∨
      ∃ e, evict db = .error e db := by
  cases hqueue : db.pool.queue.order with
  | nil =>
    refine Or.inr ⟨.error (.poolExhausted db.pool.capacity), ?_⟩
    simp only [evict, Db.bind_run, Db.get_run, Fifo.victim?, hqueue, List.head?_nil, Db.throw_run]
  | cons victim rest =>
    rcases writeBack_cases victim db with ⟨hback, hclean⟩ | ⟨w, hback⟩ | ⟨e, hback⟩
    · exact Or.inl ⟨victim, rest, rfl, Or.inl ⟨hclean, evict_of_writeBack hqueue hback⟩⟩
    · exact Or.inl ⟨victim, rest, rfl, Or.inr ⟨w, evict_of_writeBack hqueue hback⟩⟩
    · refine Or.inr ⟨e, ?_⟩
      simp only [evict, Db.bind_run, Db.get_run, Fifo.victim?, hqueue, List.head?_cons, hback]

theorem makeRoom_of_room {db : Database} (h : db.pool.size < db.pool.capacity) :
    makeRoom db = .ok () db := by
  rw [makeRoom, if_neg (Nat.not_le.mpr h)]

theorem makeRoom_of_full {db : Database} (h : db.pool.capacity ≤ db.pool.size) :
    makeRoom db = evict db := by
  rw [makeRoom, if_pos h]

theorem install_of_makeRoom {db db' : Database} (page : Page) (h : makeRoom db = .ok () db') :
    install page db = .ok (db'.pool.install page).1 (db'.holding page) := by
  rw [install, Db.bind_run, h]
  rfl

theorem fetch_of_load {db db' : Database} {id : PageId} (load : Load db id)
    (hmiss : db.pool.frames.get? id = none) (h : makeRoom load.read = .ok () db') :
    fetch id db = .ok (db'.pool.install load.page).1 (db'.holding load.page) := by
  rw [fetch_of_missing hmiss load.registered, readPage_of_counted load.counted load.parsed]
  exact install_of_makeRoom load.page h

/-- A fetch finds the page cached, or admits it after making room, or at most counts a read. -/
theorem fetch_cases (id : PageId) (db : Database) :
    (∃ frame, db.pool.frames.get? id = some frame ∧ fetch id db = .ok frame db) ∨
      (db.pool.frames.get? id = none ∧ ∃ (load : Load db id) (db' : Database),
        makeRoom load.read = .ok () db' ∧
          fetch id db = .ok (db'.pool.install load.page).1 (db'.holding load.page)) ∨
      (∃ e, fetch id db = .error e db) ∨
      ∃ file e, fetch id db = .error e (db.countTransfer file Traffic.countRead) := by
  cases hframe : db.pool.frames.get? id with
  | some frame => exact Or.inl ⟨frame, rfl, fetch_of_cached hframe⟩
  | none =>
    right
    cases hfile : db.catalog.file id.table with
    | error e => exact Or.inr (Or.inl ⟨_, fetch_of_unregistered hframe hfile⟩)
    | ok file =>
      cases hread : readPage file id db with
      | error e db' =>
        have h : fetch id db = .error e db' := by rw [fetch_of_missing hframe hfile, hread]
        rcases readPage_eq_error hread with rfl | rfl
        · exact Or.inr (Or.inl ⟨e, h⟩)
        · exact Or.inr (Or.inr ⟨file, e, h⟩)
      | ok page db' =>
        obtain ⟨hcheck, hpage, rfl⟩ := readPage_eq_ok hread
        let load : Load db id := ⟨file, page, hfile, hcheck, hpage⟩
        cases hroom : makeRoom load.read with
        | ok _ db' => exact Or.inl ⟨rfl, load, db', hroom, fetch_of_load load hframe hroom⟩
        | error e db' =>
          refine Or.inr (Or.inr ⟨file, e, ?_⟩)
          have hsame : db' = load.read := by
            by_cases hfull : load.read.pool.capacity ≤ load.read.pool.size
            · rw [makeRoom_of_full hfull] at hroom
              rcases evict_cases load.read with ⟨_, _, _, ⟨_, h⟩ | ⟨_, h⟩⟩ | ⟨_, h⟩ <;>
                rw [h] at hroom <;> cases hroom
              rfl
            · rw [makeRoom_of_room (Nat.not_le.mp hfull)] at hroom
              cases hroom
          rw [fetch_of_missing hframe hfile, hread]
          change install page load.read = .error e load.read
          rw [install, Db.bind_run, hroom, hsame]

theorem update_of_fetch_error {db db' : Database} {id : PageId} {e : Fault}
    (h : fetch id db = .error e db') (txn : TransactionId) (edit : PageEdit Unit) :
    update txn id edit db = .error e db' := by
  rw [update, Db.bind_run, h]

theorem update_of_edit_ok {db db' : Database} {id : PageId} {frame : Frame} {edit : PageEdit Unit}
    {page : Page} (h : fetch id db = .ok frame db') (hedit : edit frame.page = .ok () page)
    (txn : TransactionId) :
    update txn id edit db =
      .ok { frame with page := page.markDirty txn } (db'.replacing id (page.markDirty txn)) := by
  rw [update, Db.bind_run, h]
  simp only [editFrame, hedit]
  rfl

theorem update_of_edit_error {db db' : Database} {id : PageId} {frame : Frame} {edit : PageEdit Unit}
    {page : Page} {e : StoreError} (h : fetch id db = .ok frame db')
    (hedit : edit frame.page = .error e page) (txn : TransactionId) :
    update txn id edit db = .error (.error e) (db'.replacing id page) := by
  rw [update, Db.bind_run, h]
  simp only [editFrame, hedit]
  rfl

theorem after_update (txn : TransactionId) (id : PageId) (edit : PageEdit Unit) (db : Database) :
    after (update txn id edit) db = after (fetch id) db ∨
      ∃ frame page, fetch id db = .ok frame (after (fetch id) db) ∧
        after (update txn id edit) db = (after (fetch id) db).replacing id page := by
  cases hfetch : fetch id db with
  | error e db' =>
    rw [after_of_error hfetch, after_of_error (update_of_fetch_error hfetch txn edit)]
    exact Or.inl rfl
  | ok frame db' =>
    rw [after_of_ok hfetch]
    cases hedit : edit frame.page with
    | ok _ page =>
      rw [after_of_ok (update_of_edit_ok hfetch hedit txn)]
      exact Or.inr ⟨frame, _, rfl, rfl⟩
    | error e page =>
      rw [after_of_error (update_of_edit_error hfetch hedit txn)]
      exact Or.inr ⟨frame, _, rfl, rfl⟩

/-- An operation whose answer is not used leaves what it leaves. -/
theorem after_ignored (operation : Db α) (db : Database) :
    after (do let _ ← operation) db = after operation db := by
  rw [after_bind, after]
  cases operation db <;> rfl

theorem writeAll_cons (id : PageId) (ids : List PageId) :
    writeAll (id :: ids) = (writeBack id >>= fun _ => writeAll ids) := by
  funext db
  change ((writeBack id >>= fun _ => pure ()) >>= fun _ => writeAll ids) db = _
  rw [Db.bind_run, Db.bind_run, Db.bind_run]
  cases writeBack id db <;> rfl

theorem forM_discard (ids : List PageId) (db : Database) :
    ids.forM discard db = .ok () (ids.foldl without db) := by
  induction ids generalizing db with
  | nil => rfl
  | cons id ids ih =>
    change (discard id >>= fun _ => ids.forM discard) db = _
    rw [Db.bind_run]
    exact ih (db.without id)

theorem flushPage_eq (id : PageId) (db : Database) :
    flushPage id db =
      match writeBack id db with
      | .ok _ db' => .ok (db.pool.isCached id) db'
      | .error e db' => .error e db' := by
  cases hcached : db.pool.isCached id with
  | true =>
    simp only [flushPage, Db.bind_run, Db.get_run, hcached, if_true]
    cases writeBack id db <;> rfl
  | false =>
    have hmissing : db.pool.page? id = none := by
      simpa [Pool.isCached, Assoc.contains, Pool.page?] using hcached
    rw [writeBack_of_missing hmissing]
    simp only [flushPage, Db.bind_run, Db.get_run, hcached, Bool.false_eq_true, if_false, Db.pure_run]

theorem after_flushPage (id : PageId) (db : Database) :
    after (flushPage id) db = after (writeBack id) db := by
  rw [after, flushPage_eq, after]
  cases writeBack id db <;> rfl

theorem complete_commit (txn : TransactionId) (db : Database) :
    complete txn true db = writeAll ((db.pool.dirtiedBy txn).map Prod.fst) db := rfl

theorem complete_abort (txn : TransactionId) (db : Database) :
    complete txn false db =
      .ok () (((db.pool.dirtiedBy txn).map fun entry => entry.2.page.id).foldl without db) :=
  forM_discard _ db

/-- An update that answers its frame in a list. -/
def updateList (txn : TransactionId) (id : PageId) (edit : PageEdit Unit) : Db (List Frame) := do
  return [← update txn id edit]

theorem updateList_eq (txn : TransactionId) (id : PageId) (edit : PageEdit Unit) (db : Database) :
    updateList txn id edit db =
      match update txn id edit db with
      | .ok frame db' => .ok [frame] db'
      | .error e db' => .error e db' := by
  rw [updateList, Db.bind_run]
  cases update txn id edit db <;> rfl

theorem updateList_of_ok {txn : TransactionId} {id : PageId} {edit : PageEdit Unit}
    {db db' : Database} {frame : Frame} (h : update txn id edit db = .ok frame db') :
    updateList txn id edit db = .ok [frame] db' := by
  rw [updateList_eq, h]

theorem updateList_of_error {txn : TransactionId} {id : PageId} {edit : PageEdit Unit}
    {db db' : Database} {e : Fault} (h : update txn id edit db = .error e db') :
    updateList txn id edit db = .error e db' := by
  rw [updateList_eq, h]

theorem updateList_eq_ok {txn : TransactionId} {id : PageId} {edit : PageEdit Unit} {db db' : Database}
    {frames : List Frame} (h : updateList txn id edit db = .ok frames db') :
    ∃ frame, frames = [frame] ∧ update txn id edit db = .ok frame db' := by
  rw [updateList_eq] at h
  cases hupdate : update txn id edit db with
  | ok frame last =>
    rw [hupdate] at h
    cases h
    exact ⟨frame, rfl, rfl⟩
  | error e last =>
    rw [hupdate] at h
    cases h

theorem updateList_eq_error {txn : TransactionId} {id : PageId} {edit : PageEdit Unit} {db db' : Database}
    {e : Fault} (h : updateList txn id edit db = .error e db') : update txn id edit db = .error e db' := by
  rw [updateList_eq] at h
  cases hupdate : update txn id edit db with
  | ok frame last =>
    rw [hupdate] at h
    cases h
  | error fault last =>
    rw [hupdate] at h
    cases h
    rfl

theorem after_updateList (txn : TransactionId) (id : PageId) (edit : PageEdit Unit) (db : Database) :
    after (updateList txn id edit) db = after (update txn id edit) db := by
  rw [after, updateList_eq, after]
  cases update txn id edit db <;> rfl

/-- Behind the last page an empty page is written, and then it takes the tuple. -/
theorem insertAmong_zero (file : TableFile) (txn : TransactionId) (t : Tuple) (page : Nat)
    (db : Database) :
    insertAmong file txn t page 0 db =
      updateList txn ⟨file.id, UInt32.ofNat page⟩ (insertEdit t)
        (db.storing file (UInt32.ofNat page) (List.replicate file.pageSize 0)) := by
  change (writeImage file (UInt32.ofNat page) (List.replicate file.pageSize 0) >>= fun _ =>
    updateList txn ⟨file.id, UInt32.ofNat page⟩ (insertEdit t)) db = _
  rw [Db.bind_run, writeImage_of_length List.length_replicate]

/-- A page is fetched, and it takes the tuple or is passed. -/
theorem insertAmong_succ (file : TableFile) (txn : TransactionId) (t : Tuple) (page left : Nat)
    (db : Database) :
    insertAmong file txn t page (left + 1) db =
      match fetch ⟨file.id, UInt32.ofNat page⟩ db with
      | .ok frame db' =>
        if 0 < frame.page.numEmptySlots then
          updateList txn ⟨file.id, UInt32.ofNat page⟩ (insertEdit t) db'
        else insertAmong file txn t (page + 1) left db'
      | .error e db' => .error e db' := by
  change (fetch ⟨file.id, UInt32.ofNat page⟩ >>= fun frame =>
    if 0 < frame.page.numEmptySlots then updateList txn ⟨file.id, UInt32.ofNat page⟩ (insertEdit t)
    else insertAmong file txn t (page + 1) left) db = _
  rw [Db.bind_run]
  cases fetch ⟨file.id, UInt32.ofNat page⟩ db with
  | ok frame db' =>
    dsimp only
    split <;> rfl
  | error e db' => rfl

/-- The run of an operation without its answer. -/
def unanswered (result : EStateM.Result Fault Database α) : EStateM.Result Fault Database Unit :=
  match result with
  | .ok _ db => .ok () db
  | .error e db => .error e db

theorem unanswered_eq_ok {result : EStateM.Result Fault Database α} {db' : Database}
    (h : unanswered result = .ok () db') : ∃ answer, result = .ok answer db' := by
  cases result with
  | ok answer last =>
    cases h
    exact ⟨answer, rfl⟩
  | error e last => cases h

theorem ignored_eq (operation : Db α) (db : Database) :
    (do let _ ← operation : Db Unit) db = unanswered (operation db) := by
  rw [Db.bind_run]
  cases operation db <;> rfl

theorem after_unanswered {operation : Db Unit} {other : Db α} {db db' : Database}
    (h : operation db = unanswered (other db')) : after operation db = after other db' := by
  rw [after, after, h]
  cases other db' <;> rfl

theorem unanswered_eq_error {result : EStateM.Result Fault Database α} {e : Fault} {db' : Database}
    (h : unanswered result = .error e db') : result = .error e db' := by
  cases result with
  | ok answer last => cases h
  | error fault last =>
    cases h
    rfl

/-- An insert is refused for another schema, and otherwise looks at all pages of the file. -/
theorem insertInto_eq (file : TableFile) (txn : TransactionId) (t : Tuple) (db : Database) :
    insertInto file txn t db =
      if t.schema.Agrees file.schema then insertAmong file txn t 0 (file.numPages db.volume).toNat db
      else .error (.error (.schemaMismatch file.schema.text t.schema.text)) db := by
  rw [insertInto]
  by_cases hagrees : t.schema.Agrees file.schema
  · simp only [hagrees, if_true]
    rfl
  · simp only [hagrees, if_false]
    rfl

theorem insertTuple_of_registered (txn : TransactionId) (t : Tuple) {table : TableId} {file : TableFile}
    {db : Database} (hfile : db.catalog.file table = .ok file) :
    insertTuple txn table t db = unanswered (insertInto file txn t db) := by
  rw [insertTuple, Db.bind_run, fileOf_of_registered hfile]
  exact ignored_eq _ _

theorem insertTuple_eq (txn : TransactionId) (t : Tuple) {table : TableId} {file : TableFile}
    {db : Database} (hfile : db.catalog.file table = .ok file) :
    insertTuple txn table t db =
      if t.schema.Agrees file.schema then
        unanswered (insertAmong file txn t 0 (file.numPages db.volume).toNat db)
      else .error (.error (.schemaMismatch file.schema.text t.schema.text)) db := by
  rw [insertTuple_of_registered txn t hfile, insertInto_eq]
  split <;> rfl

theorem insertTuple_of_missing (txn : TransactionId) (t : Tuple) {table : TableId} {e : StoreError}
    {db : Database} (hfile : db.catalog.file table = .error e) :
    insertTuple txn table t db = .error (.error e) db := by
  rw [insertTuple, Db.bind_run, fileOf_of_missing hfile]

theorem deleteFrom_eq (file : TableFile) (txn : TransactionId) {t : Tuple} {record : RecordId}
    (hrecord : t.record = some record) (db : Database) :
    deleteFrom file txn t db =
      match file.checkPage db.volume record.page with
      | .error e => .error (.error e) db
      | .ok () => updateList txn record.page (Page.delete t) db := by
  simp only [deleteFrom, hrecord]
  change (lift (file.checkPage db.volume record.page) >>= fun _ =>
    updateList txn record.page (Page.delete t)) db = _
  rw [Db.bind_run]
  cases file.checkPage db.volume record.page <;> rfl

/-- A delete in a registered table goes to the file that is registered for it. -/
theorem deleteTuple_eq (txn : TransactionId) {t : Tuple} {record : RecordId} {file : TableFile}
    {db : Database} (hrecord : t.record = some record)
    (hfile : db.catalog.file record.page.table = .ok file) :
    deleteTuple txn t db =
      match file.checkPage db.volume record.page with
      | .error e => .error (.error e) db
      | .ok () => unanswered (update txn record.page (Page.delete t) db) := by
  rw [deleteTuple]
  simp only [hrecord]
  rw [Db.bind_run, fileOf_of_registered hfile]
  dsimp only
  rw [ignored_eq]
  rw [deleteFrom_eq file txn hrecord]
  cases file.checkPage db.volume record.page with
  | error e => rfl
  | ok _ =>
    simp only [updateList_eq]
    cases update txn record.page (Page.delete t) db <;> rfl

theorem deleteTuple_of_missing (txn : TransactionId) {t : Tuple} {record : RecordId} {e : StoreError}
    {db : Database} (hrecord : t.record = some record)
    (hfile : db.catalog.file record.page.table = .error e) :
    deleteTuple txn t db = .error (.error e) db := by
  rw [deleteTuple]
  simp only [hrecord]
  rw [Db.bind_run, fileOf_of_missing hfile]

theorem deleteTuple_of_noRecord (txn : TransactionId) {t : Tuple} (hrecord : t.record = none)
    (db : Database) : deleteTuple txn t db = .error (.error .missingRecordId) db := by
  rw [deleteTuple]
  simp only [hrecord]
  rfl

end Database
end RowStore
