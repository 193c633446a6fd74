import RowStore.Proofs.PageImages
import RowStore.Proofs.Registrations

/-!
# All that clients can do

A client opens files with pages of any size, registers them and forgets all tables, reads and writes
pages past the pool, inserts and deletes through a file that need not be registered, edits pages through
the pool or in its own hands, and makes calls. Whatever was done since a database was put over the files
of a volume, and whether it succeeded or failed, each cached page is within its file.
-/
namespace RowStore
open Relation Database

namespace PageCall

/-- The call inserts no tuple but those that there are. -/
def Proper : PageCall → Prop
  | .insert t => t.Built
  | .delete _ | .markDirty _ | .markClean => True

end PageCall

namespace Page

/-- The page that an edit leaves, whether it succeeds or fails. -/
def edited (page : Page) (edit : PageEdit Unit) : Page :=
  match edit page with
  | .ok _ left => left
  | .error _ left => left

theorem edited_of_ok {page left : Page} {edit : PageEdit Unit} (h : edit page = .ok () left) :
    page.edited edit = left := by
  rw [edited, h]

theorem edited_of_error {page left : Page} {edit : PageEdit Unit} {e : StoreError}
    (h : edit page = .error e left) : page.edited edit = left := by
  rw [edited, h]

/-- The other page is a shaped one of the same number, schema and size. -/
structure Alike (page other : Page) : Prop where
  id : other.id = page.id
  schema : other.schema = page.schema
  size : other.size = page.size
  shaped : other.Shaped

theorem Alike.trans {a b c : Page} (hab : a.Alike b) (hbc : b.Alike c) : a.Alike c :=
  ⟨hbc.id.trans hab.id, hbc.schema.trans hab.schema, hbc.size.trans hab.size, hbc.shaped⟩

theorem Shaped.alike_leaves {page : Page} (h : page.Shaped) {call : PageCall} (hcall : call.Proper) :
    page.Alike (call.leaves page) := by
  rcases call.leaves_cases page with hleft | ⟨t, slot, rfl, hagrees, hfree, hleft⟩ |
    ⟨slot, hused, hleft⟩ | ⟨mark, hleft⟩ <;> rw [hleft]
  · exact ⟨rfl, rfl, rfl, h⟩
  · have hslot := ((page.freeSlot?_eq_some_iff slot).mp hfree).1
    exact ⟨rfl, rfl, rfl, h.fill hslot hagrees (Tuple.Built.complete hcall)⟩
  · rw [isSlotUsed, Bool.and_eq_true, decide_eq_true_eq] at hused
    exact ⟨rfl, rfl, rfl, h.free hused.1⟩
  · exact ⟨rfl, rfl, rfl, ⟨h.slots, h.header, h.marked, h.stored⟩⟩

theorem Shaped.alike_run {page : Page} (h : page.Shaped) {calls : List PageCall}
    (hcalls : ∀ call ∈ calls, call.Proper) : page.Alike (run calls page) := by
  induction calls generalizing page with
  | nil => exact ⟨rfl, rfl, rfl, h⟩
  | cons call calls ih =>
    have hfirst := h.alike_leaves (hcalls call List.mem_cons_self)
    exact hfirst.trans (ih hfirst.shaped fun other hmem => hcalls other (List.mem_cons_of_mem _ hmem))

/-- The edit leaves every page as calls would leave it: it inserts tuples, deletes and marks, and it can
do nothing else to a page. -/
def Handles (edit : PageEdit Unit) : Prop :=
  ∀ page : Page, ∃ calls : List PageCall, (∀ call ∈ calls, call.Proper) ∧ page.edited edit = run calls page

theorem handles_perform (call : PageCall) (hcall : call.Proper) : Handles call.perform :=
  fun _ => ⟨[call], List.forall_mem_singleton.mpr hcall, rfl⟩

theorem Shaped.alike_edited {page : Page} (h : page.Shaped) {edit : PageEdit Unit} (hedit : Handles edit) :
    page.Alike (page.edited edit) := by
  obtain ⟨calls, hcalls, hleft⟩ := hedit page
  rw [hleft]
  exact h.alike_run hcalls

end Page

namespace Call

/-- Tuples are edited and pages are handled, and no tuple is inserted but those that there are. -/
def Proper : Call → Prop
  | .update _ _ edit => Page.Handles edit
  | call => call.Edits Tuple.Built

end Call

namespace Database

/-- A client changes a cached page that it holds. The pool takes no part, so it sets no mark. -/
def editHeld (id : PageId) (edit : PageEdit Unit) : Db Unit := fun db =>
  match db.pool.page? id with
  | none => .ok () db
  | some page =>
    match edit page with
    | .ok () left => .ok () (db.replacing id left)
    | .error e left => .error (.error e) (db.replacing id left)

end Database

/-- One thing that a client does. -/
inductive Request where
  | use (use : Use)
  | openFile (path : String) (schema : Schema) (pageSize : Nat)
  | register (file : TableFile) (name key : String)
  | clearCatalog
  | readPage (file : TableFile) (id : PageId)
  | writePage (file : TableFile) (page : Page)
  | insertInto (file : TableFile) (txn : TransactionId) (t : Tuple)
  | deleteFrom (file : TableFile) (txn : TransactionId) (t : Tuple)
  | editHeld (id : PageId) (edit : PageEdit Unit)

namespace Request

def perform : Request → Db Unit
  | .use u => u.perform
  | .openFile path schema pageSize => do let _ ← Database.openFile path schema pageSize
  | .register file name key => addTable file name key
  | .clearCatalog => Database.clearCatalog
  | .readPage file id => do let _ ← Database.readPage file id
  | .writePage file page => Database.writePage file page
  | .insertInto file txn t => do let _ ← Database.insertInto file txn t
  | .deleteFrom file txn t => do let _ ← Database.deleteFrom file txn t
  | .editHeld id edit => Database.editHeld id edit

/-- The database that the request leaves. -/
def leaves (request : Request) (db : Database) : Database := after request.perform db

/-- No tuple is inserted but those that there are, and pages are handled only. -/
def Proper : Request → Prop
  | .use (.call call) => call.Proper
  | .insertInto _ _ t => t.Built
  | .editHeld _ edit => Page.Handles edit
  | .use (.create _ _ _ _) | .openFile _ _ _ | .register _ _ _ | .clearCatalog | .readPage _ _
  | .writePage _ _ | .deleteFrom _ _ _ => True

end Request

/-- A row of one integer column is a tuple. -/
theorem Tuple.built_integer (value : Int32) :
    Tuple.Built ⟨⟨[{ type := .integer }], List.cons_ne_nil _ _⟩, [.int value], none⟩ :=
  have hfields : Tuple.ofFields ⟨[{ type := .integer }], List.cons_ne_nil _ _⟩ [.int value] =
    .ok ⟨⟨[{ type := .integer }], List.cons_ne_nil _ _⟩, [.int value], none⟩ := rfl
  .ofFields hfields

namespace Database

/-- The databases that requests lead to from a database over the files of some volume. -/
inductive Reachable : Database → Prop
  | start (config : Config) (volume : Volume) : Reachable (onVolume config volume)
  | request {db : Database} (reached : Reachable db) (request : Request) (proper : request.Proper) :
      Reachable (request.leaves db)

variable {db db' : Database}

theorem Within.of_alike {id : PageId} {page other : Page} (h : db.Within id page)
    (halike : page.Alike other) : db.Within id other :=
  ⟨halike.id.trans h.identified, halike.shaped, by rw [halike.size]; exact h.counted⟩

theorem orderly_bind {α β : Type} {operation : Db α} {next : α → Db β} (h : (after operation db).Orderly)
    (hnext : ∀ a db', operation db = .ok a db' → db'.Orderly → (after (next a) db').Orderly) :
    (after (operation >>= next) db).Orderly := by
  rw [after_bind]
  cases hrun : operation db with
  | ok a middle =>
    rw [after_of_ok hrun] at h
    exact hnext a middle hrun h
  | error e middle =>
    rw [after_of_error hrun] at h
    exact h

theorem Orderly.fetch (h : db.Orderly) (id : PageId) : (after (fetch id) db).Orderly :=
  h.turnovers (h.fetch_turnovers id).1

theorem Orderly.update (h : db.Orderly) (txn : TransactionId) (id : PageId) {edit : PageEdit Unit}
    (hedit : Page.Handles edit) : (after (update txn id edit) db).Orderly := by
  cases hfetch : Database.fetch id db with
  | error e middle =>
    have hfetched := h.fetch id
    rw [after_of_error hfetch] at hfetched
    rwa [after_of_error (update_of_fetch_error hfetch txn edit)]
  | ok frame middle =>
    obtain ⟨_, hmiddle, hcached⟩ := h.fetched hfetch
    have hwithin := hmiddle.cached id _ hcached
    have hleft := hwithin.of_alike (hwithin.shaped.alike_edited hedit)
    cases hrun : edit frame.page with
    | ok _ page =>
      rw [after_of_ok (update_of_edit_ok hfetch hrun txn)]
      rw [Page.edited_of_ok hrun] at hleft
      exact hmiddle.replacing hcached ⟨hleft.identified, hleft.shaped.markDirty txn, hleft.counted⟩
    | error e page =>
      rw [after_of_error (update_of_edit_error hfetch hrun txn)]
      rw [Page.edited_of_error hrun] at hleft
      exact hmiddle.replacing hcached hleft

theorem Orderly.update_insert (h : db.Orderly) (txn : TransactionId) (id : PageId) {t : Tuple}
    (ht : t.Built) : (after (Database.update txn id (insertEdit t)) db).Orderly :=
  h.update txn id (Page.handles_perform (.insert t) ht)

theorem Orderly.insertAmong (file : TableFile) (txn : TransactionId) {t : Tuple} (ht : t.Built)
    (page left : Nat) {db : Database} (h : db.Orderly) :
    (after (insertAmong file txn t page left) db).Orderly := by
  induction left generalizing page db with
  | zero =>
    rw [after_congr (insertAmong_zero file txn t page db), after_updateList]
    exact (h.storing _ List.length_replicate).update_insert txn _ ht
  | succ left ih =>
    have hfetched := h.fetch ⟨file.id, UInt32.ofNat page⟩
    rw [after, insertAmong_succ]
    cases hfetch : Database.fetch ⟨file.id, UInt32.ofNat page⟩ db with
    | error e middle =>
      rw [after_of_error hfetch] at hfetched
      exact hfetched
    | ok frame middle =>
      rw [after_of_ok hfetch] at hfetched
      by_cases hfree : 0 < frame.page.numEmptySlots
      · simp only [hfree, if_true]
        have hupdate := hfetched.update_insert txn ⟨file.id, UInt32.ofNat page⟩ ht
        rwa [← after_updateList] at hupdate
      · simp only [hfree, if_false]
        exact ih (page + 1) hfetched

theorem Orderly.insertInto (h : db.Orderly) (file : TableFile) (txn : TransactionId) {t : Tuple}
    (ht : t.Built) : (after (insertInto file txn t) db).Orderly := by
  rw [after, insertInto_eq]
  by_cases hagrees : t.schema.Agrees file.schema
  · rw [if_pos hagrees]
    exact h.insertAmong file txn ht 0 _
  · rwa [if_neg hagrees]

theorem Orderly.deleteFrom (h : db.Orderly) (file : TableFile) (txn : TransactionId) (t : Tuple) :
    (after (deleteFrom file txn t) db).Orderly := by
  rw [Database.deleteFrom]
  cases t.record with
  | none => exact h
  | some record =>
    change (after (lift (file.checkPage db.volume record.page) >>= fun _ =>
      updateList txn record.page (Page.delete t)) db).Orderly
    apply orderly_bind
    · cases hcheck : file.checkPage db.volume record.page <;> exact h
    · intro _ middle _ hmiddle
      rw [after_updateList]
      exact hmiddle.update txn _ (Page.handles_perform (.delete t) trivial)

theorem orderly_fileOf_bind {α : Type} (h : db.Orderly) (table : TableId) {next : TableFile → Db α}
    (hnext : ∀ file, (after (next file) db).Orderly) : (after (fileOf table >>= next) db).Orderly := by
  rw [after_bind]
  cases hfile : db.catalog.file table with
  | error e =>
    rw [fileOf_of_missing hfile]
    exact h
  | ok file =>
    rw [fileOf_of_registered hfile]
    exact hnext file

theorem Orderly.insertTuple (h : db.Orderly) (txn : TransactionId) (table : TableId) {t : Tuple}
    (ht : t.Built) : (after (insertTuple txn table t) db).Orderly := by
  apply orderly_fileOf_bind h table
  intro file
  rw [after_ignored]
  exact h.insertInto file txn ht

theorem Orderly.deleteTuple (h : db.Orderly) (txn : TransactionId) (t : Tuple) :
    (after (deleteTuple txn t) db).Orderly := by
  rw [Database.deleteTuple]
  cases t.record with
  | none => exact h
  | some record =>
    apply orderly_fileOf_bind h record.page.table
    intro file
    rw [after_ignored]
    exact h.deleteFrom file txn t

theorem Orderly.foldl_without (ids : List PageId) {db : Database} (h : db.Orderly) :
    (ids.foldl Database.without db).Orderly := by
  induction ids generalizing db with
  | nil => exact h
  | cons id ids ih => exact ih (h.without id)

theorem after_editHeld (id : PageId) (edit : PageEdit Unit) (db : Database) :
    after (editHeld id edit) db = db ∨ ∃ page, db.pool.page? id = some page ∧
      after (editHeld id edit) db = db.replacing id (page.edited edit) := by
  cases hcached : db.pool.page? id with
  | none =>
    left
    simp only [after, editHeld, hcached]
  | some page =>
    refine Or.inr ⟨page, rfl, ?_⟩
    cases hrun : edit page <;> simp only [after, editHeld, hcached, hrun, Page.edited]

theorem Orderly.editHeld (h : db.Orderly) (id : PageId) {edit : PageEdit Unit} (hedit : Page.Handles edit) :
    (after (editHeld id edit) db).Orderly := by
  rcases after_editHeld id edit db with hafter | ⟨page, hcached, hafter⟩ <;> rw [hafter]
  · exact h
  · have hwithin := h.cached id page hcached
    exact h.replacing hcached (hwithin.of_alike (hwithin.shaped.alike_edited hedit))

theorem Orderly.of_tables (h : db.Orderly) (hpool : db'.pool = db.pool)
    (hvolume : ∀ name, db'.volume.contents name = db.volume.contents name)
    (hnamed : ∀ table file, db'.catalog.file table = .ok file → file.id = table) : db'.Orderly := by
  constructor
  case inOrder => rw [hpool]; exact h.inOrder
  case named => exact hnamed
  case cached =>
    intro id page hpage
    rw [hpool] at hpage
    refine (h.cached id page hpage).mono (Nat.le_of_eq ?_)
    cases id.table with
    | number n => rfl
    | file name => rw [span, span, hvolume]

theorem Orderly.openFile (h : db.Orderly) (path : String) (schema : Schema) (pageSize : Nat) :
    (after (openFile path schema pageSize) db).Orderly := by
  rcases openFile_cases path schema pageSize db with ⟨file, _, _, _, _, hopen⟩ | ⟨_, e, hopen⟩
  · rw [after_of_ok hopen]
    exact h.of_tables rfl (Volume.contents_touch db.volume file.pages.name) h.named
  · rwa [after_of_error hopen]

theorem Orderly.addTable (h : db.Orderly) (file : TableFile) (name key : String) :
    (after (addTable file name key) db).Orderly := by
  refine h.of_tables rfl (fun _ => rfl) fun table found hfound => ?_
  rcases file_addTable hfound with ⟨rfl, rfl⟩ | hold
  · rfl
  · exact h.named table found hold

theorem Orderly.createTable (h : db.Orderly) (path name : String) (schema : Schema) (key : String) :
    (after (createTable path name schema key) db).Orderly := by
  change (after (Database.openFile path schema db.config.pageSize >>= fun file =>
    Database.addTable file name key >>= fun _ => pure file.id) db).Orderly
  apply orderly_bind (h.openFile path schema _)
  intro file middle _ hmiddle
  apply orderly_bind (hmiddle.addTable file name key)
  exact fun _ _ _ hlast => hlast

theorem Orderly.call (h : db.Orderly) {call : Call} (hcall : call.Proper) : (call.leaves db).Orderly := by
  have hwrites (ids : List PageId) : (after (writeAll ids) db).Orderly :=
    h.turnovers (writeAll_turnovers ids db)
  cases call with
  | fetch id =>
    rw [Call.leaves, Call.perform, after_ignored]
    exact h.fetch id
  | insert txn table t => exact h.insertTuple txn table hcall
  | delete txn t => exact h.deleteTuple txn t
  | update txn id edit =>
    rw [Call.leaves, Call.perform, after_ignored]
    exact h.update txn id hcall
  | flushPage id =>
    rw [Call.leaves, Call.perform, after_ignored, after_flushPage]
    exact h.turnovers (writeBack_turnovers id db)
  | flushTransaction txn => exact hwrites _
  | flushAll => exact hwrites _
  | flushList ids => exact hwrites ids
  | discard id => exact h.without id
  | complete txn commit =>
    cases commit with
    | true => exact hwrites _
    | false =>
      rw [Call.leaves, Call.perform, after_of_ok (complete_abort txn db)]
      exact h.foldl_without _

theorem Orderly.leaves (h : db.Orderly) {request : Request} (hrequest : request.Proper) :
    (request.leaves db).Orderly := by
  cases request with
  | use u =>
    cases u with
    | create path name schema key =>
      rw [Request.leaves, Request.perform, Use.perform, after_ignored]
      exact h.createTable path name schema key
    | call c => exact h.call hrequest
  | openFile path schema pageSize =>
    rw [Request.leaves, Request.perform, after_ignored]
    exact h.openFile path schema pageSize
  | register file name key => exact h.addTable file name key
  | clearCatalog =>
    refine h.of_tables rfl (fun _ => rfl) fun table found hfound => ?_
    cases hfound
  | readPage file id =>
    rw [Request.leaves, Request.perform, after_ignored]
    cases hread : Database.readPage file id db with
    | ok page middle =>
      rw [after_of_ok hread, (readPage_eq_ok hread).2.2]
      exact h.turnover (.read file)
    | error e middle =>
      rw [after_of_error hread]
      rcases readPage_eq_error hread with rfl | rfl
      · exact h
      · exact h.turnover (.read file)
  | writePage file page =>
    rcases writePage_cases file page db with ⟨image, _, _, hlength, hwrite⟩ | ⟨e, hwrite⟩
    · rw [Request.leaves, Request.perform, after_of_ok hwrite]
      exact h.storing _ hlength
    · rw [Request.leaves, Request.perform, after_of_error hwrite]
      exact h
  | insertInto file txn t =>
    rw [Request.leaves, Request.perform, after_ignored]
    exact h.insertInto file txn hrequest
  | deleteFrom file txn t =>
    rw [Request.leaves, Request.perform, after_ignored]
    exact h.deleteFrom file txn t
  | editHeld id edit => exact h.editHeld id hrequest

theorem orderly_onVolume (config : Config) (volume : Volume) : (onVolume config volume).Orderly :=
  (housed_onVolume config volume).orderly

theorem Reachable.run {calls : List Call} (h : db.Reachable) (hcalls : ∀ call ∈ calls, call.Proper) :
    (run calls db).Reachable :=
  run_induction (fun call hmem _ hreached => hreached.request (.use (.call call))
    (hcalls call hmem)) h

theorem reachable_withTable (config : Config) (path : String) (schema : Schema) :
    (withTable config path schema).Reachable := by
  have hcreate := (Reachable.start config {}).request
    (.use (.create path path schema "")) trivial
  rwa [Request.leaves, Request.perform, Use.perform, after_ignored] at hcreate

/-- Whatever was requested, every cached page is within its file. -/
theorem Reachable.orderly (h : db.Reachable) : db.Orderly := by
  induction h with
  | start config volume => exact orderly_onVolume config volume
  | request _ _ hproper ih => exact ih.leaves hproper

end Database
end RowStore
