import RowStore.Proofs.Operations

/-!
# Calls and runs

A call is one use of the pool by a transaction. A run is a sequence of calls, each made on the
database that the one before left, whether that one succeeded or failed.
-/
namespace RowStore
open Database

inductive Call where
  | fetch (id : PageId)
  | insert (txn : TransactionId) (table : TableId) (t : Tuple)
  | delete (txn : TransactionId) (t : Tuple)
  | update (txn : TransactionId) (id : PageId) (edit : PageEdit Unit)
  | flushPage (id : PageId)
  | flushTransaction (txn : TransactionId)
  | flushAll
  /-- A flush that visits pages in an order of its own. -/
  | flushList (ids : List PageId)
  | discard (id : PageId)
  | complete (txn : TransactionId) (commit : Bool)

namespace Call

def perform : Call → Db Unit
  | .fetch id => do let _ ← Database.fetch id
  | .insert txn table t => insertTuple txn table t
  | .delete txn t => deleteTuple txn t
  | .update txn id edit => do let _ ← Database.update txn id edit
  | .flushPage id => do let _ ← Database.flushPage id
  | .flushTransaction txn => Database.flushTransaction txn
  | .flushAll => Database.flushAll
  | .flushList ids => writeAll ids
  | .discard id => Database.discard id
  | .complete txn commit => Database.complete txn commit

/-- The database that the call leaves. -/
def leaves (call : Call) (db : Database) : Database := after call.perform db

/-- The call does what it is asked for. -/
def Succeeds (call : Call) (db : Database) : Prop := ∃ db', call.perform db = .ok () db'

end Call

/-- The database after the calls. -/
def run : List Call → Database → Database
  | [], db => db
  | call :: calls, db => run calls (call.leaves db)

theorem run_induction {P : Database → Prop} {calls : List Call} {db : Database}
    (hstep : ∀ call ∈ calls, ∀ db, P db → P (call.leaves db)) (h : P db) : P (run calls db) := by
  induction calls generalizing db with
  | nil => exact h
  | cons call calls ih =>
    refine ih (fun other hmem => hstep other (List.mem_cons_of_mem _ hmem)) ?_
    exact hstep call List.mem_cons_self db h

namespace Database

/-- Nothing was loaded yet, every table is registered under the name of its file, and every
registered file has been opened. -/
structure Fresh (db : Database) : Prop where
  pool : db.pool = { capacity := db.pool.capacity }
  named : ∀ table file, db.catalog.file table = .ok file → file.id = table
  opened : ∀ table file, db.catalog.file table = .ok file → file.serial < db.traffic.length

theorem fresh_onVolume (config : Config) (volume : Volume) : (onVolume config volume).Fresh := by
  constructor
  · rfl
  · intro table file h
    cases h
  · intro table file h
    cases h

/-- The files of a catalog after one was added: the new one, and others that were there before. -/
theorem file_addTable {catalog : Catalog} {file found : TableFile} {name key : String}
    {table : TableId} (h : (catalog.addTable file name key).file table = .ok found) :
    table = file.id ∧ found = file ∨ catalog.file table = .ok found := by
  simp only [Catalog.file, Catalog.entry, Catalog.addTable, Assoc.get?_insert] at h ⊢
  by_cases hid : table = file.id
  · rw [if_pos hid] at h
    cases h
    exact Or.inl ⟨hid, rfl⟩
  · rw [if_neg hid] at h
    right
    cases hname : catalog.ids.get? name with
    | none => simpa only [hname] using h
    | some old =>
      simp only [hname] at h
      by_cases hold : old = file.id
      · simpa only [hold, if_true] using h
      · rw [if_neg hold, Assoc.get?_erase] at h
        by_cases htable : table = old
        · rw [if_pos htable] at h
          cases h
        · rwa [if_neg htable] at h

theorem Fresh.addTable {db : Database} (h : db.Fresh) {file : TableFile}
    (hopen : file.serial < db.traffic.length) (name key : String) :
    (after (Database.addTable file name key) db).Fresh := by
  constructor
  · exact h.pool
  · intro table found hfound
    rcases file_addTable hfound with ⟨rfl, rfl⟩ | hold
    · rfl
    · exact h.named table found hold
  · intro table found hfound
    rcases file_addTable hfound with ⟨rfl, rfl⟩ | hold
    · exact hopen
    · exact h.opened table found hold

/-- The database after the file was opened. -/
def opening (db : Database) (file : TableFile) : Database :=
  { db with volume := db.volume.touch file.pages.name, traffic := db.traffic ++ [{}] }

/-- A file is opened with that schema and page size and gets the next serial number; or the path leads to
no file, or a page has no slots or too many, and nothing is changed. -/
theorem openFile_cases (path : String) (schema : Schema) (pageSize : Nat) (db : Database) :
    (∃ file : TableFile, Path.resolve? path = some file.pages.name ∧ file.schema = schema ∧
      file.pageSize = pageSize ∧ file.serial = db.traffic.length ∧
        openFile path schema pageSize db = .ok file (db.opening file)) ∨
      (Path.resolve? path = none ∨ Layout.slotCount schema.size pageSize = 0 ∨
        Layout.maxSlots < Layout.slotCount schema.size pageSize) ∧
          ∃ e, openFile path schema pageSize db = .error e db := by
  by_cases hpos : 0 < Layout.slotCount schema.size pageSize
  · by_cases hle : Layout.slotCount schema.size pageSize ≤ Layout.maxSlots
    · cases hname : Path.resolve? path with
      | none =>
        refine Or.inr ⟨Or.inl rfl, ?_⟩
        simp only [openFile, hpos, hle, dite_true, hname]
        exact ⟨_, rfl⟩
      | some name =>
        refine Or.inl ⟨⟨db.traffic.length, ⟨name, pageSize⟩, schema, hpos, hle⟩, rfl, rfl, rfl, rfl, ?_⟩
        simp only [openFile, hpos, hle, dite_true, hname]
        rfl
    · refine Or.inr ⟨Or.inr (Or.inr (Nat.lt_of_not_le hle)), ?_⟩
      simp only [openFile, hpos, hle, dite_true, dite_false]
      exact ⟨_, rfl⟩
  · refine Or.inr ⟨Or.inr (Or.inl (Nat.eq_zero_of_not_pos hpos)), ?_⟩
    simp only [openFile, hpos, dite_false]
    exact ⟨_, rfl⟩

theorem Fresh.createTable {db : Database} (h : db.Fresh) (path name : String) (schema : Schema)
    (key : String) : (after (Database.createTable path name schema key) db).Fresh := by
  change (after (openFile path schema db.config.pageSize >>= fun file =>
    Database.addTable file name key >>= fun _ => pure file.id) db).Fresh
  rw [after_bind]
  rcases openFile_cases path schema db.config.pageSize db with ⟨file, _, _, _, hserial, hopen⟩ |
    ⟨_, e, hopen⟩
  · rw [hopen]
    have hfresh : (db.opening file).Fresh := by
      refine ⟨h.pool, h.named, fun table other hother => ?_⟩
      rw [opening, List.length_append]
      exact Nat.lt_add_right 1 (h.opened table other hother)
    apply hfresh.addTable
    rw [hserial, opening, List.length_append]
    exact Nat.lt_succ_self _
  · rw [hopen]
    exact h

/-- A new database with one table, which is named like its file. -/
def withTable (config : Config) (path : String) (schema : Schema) : Database :=
  after (createTable path path schema "") (Database.new config)

theorem fresh_withTable (config : Config) (path : String) (schema : Schema) :
    (withTable config path schema).Fresh :=
  (fresh_onVolume config {}).createTable path path schema ""

theorem bytes_withTable (config : Config) (path : String) (schema : Schema) (name : String) :
    (withTable config path schema).volume.bytes name = [] := by
  change (after (openFile path schema config.pageSize >>= fun file =>
    Database.addTable file path "" >>= fun _ => pure file.id) (Database.new config)).volume.bytes name = []
  rw [after_bind]
  rcases openFile_cases path schema config.pageSize (Database.new config) with
    ⟨file, _, _, _, _, hopen⟩ | ⟨_, e, hopen⟩
  · rw [hopen]
    exact Volume.bytes_touch {} file.pages.name name
  · rw [hopen]
    rfl

end Database
end RowStore
