import RowStore.Proofs.Turnover

/-!
# Runs that create tables

A database is used by calls and by creating tables. A table that is created takes its file and perhaps
its name from another one, at any time and under any schema, and it touches no cached page. From a
database over any files, every run keeps the cached pages housed.
-/
namespace RowStore
open Relation Database

inductive Use where
  | create (path name : String) (schema : Schema) (key : String)
  | call (call : Call)

namespace Use

def perform : Use → Db Unit
  | .create path name schema key => do let _ ← createTable path name schema key
  | .call c => c.perform

/-- The database that the use leaves. -/
def leaves (use : Use) (db : Database) : Database := after use.perform db

/-- Tables are created and tuples are edited, and none but accepted ones are inserted. -/
def Edits (accepts : Tuple → Prop) : Use → Prop
  | .create _ _ _ _ => True
  | .call c => c.Edits accepts

/-- A table is created with columns such as it may have. -/
def Keeps (columns : TableId → List ColumnType → Prop) : Use → Prop
  | .create path _ schema _ => ∀ name, Path.resolve? path = some name → columns (.file name) schema.types
  | .call _ => True

end Use

/-- What happens around something that reads a database: it is asked, or the database is used. -/
inductive Event (δ : Type) where
  | ask (demand : δ)
  | use (use : Use)

/-- The database after the uses. -/
def play : List Use → Database → Database
  | [], db => db
  | use :: uses, db => play uses (use.leaves db)

/-- Every use of the run is proper in the database that it finds. -/
def EachUse (proper : Use → Database → Prop) : List Use → Database → Prop
  | [], _ => True
  | use :: uses, db => proper use db ∧ EachUse proper uses (use.leaves db)

/-- Every database of the run has the property. -/
def Throughout (P : Database → Prop) : List Use → Database → Prop
  | [], db => P db
  | use :: uses, db => P db ∧ Throughout P uses (use.leaves db)

theorem play_induction {P : Database → Prop} {proper : Use → Database → Prop} {uses : List Use}
    {db : Database} (hstep : ∀ use ∈ uses, ∀ db, proper use db → P db → P (use.leaves db))
    (hproper : EachUse proper uses db) (h : P db) : P (play uses db) := by
  induction uses generalizing db with
  | nil => exact h
  | cons use uses ih =>
    refine ih (fun other hmem => hstep other (List.mem_cons_of_mem _ hmem)) hproper.2 ?_
    exact hstep use List.mem_cons_self db hproper.1 h

/-- Where a property is kept by exactly the proper uses, it lasts throughout the runs of proper uses and
no others. -/
theorem throughout_iff {P I : Database → Prop} {proper : Use → Database → Prop} {uses : List Use}
    {db : Database} (hkept : ∀ use ∈ uses, ∀ db, I db → I (use.leaves db))
    (hstep : ∀ use ∈ uses, ∀ db, I db → P db → (P (use.leaves db) ↔ proper use db))
    (hI : I db) (hP : P db) : Throughout P uses db ↔ EachUse proper uses db := by
  induction uses generalizing db with
  | nil => exact iff_of_true hP trivial
  | cons use uses ih =>
    have hfirst := hstep use List.mem_cons_self db hI hP
    have hrest (hnext : P (use.leaves db)) : Throughout P uses (use.leaves db) ↔
        EachUse proper uses (use.leaves db) :=
      ih (fun other hmem => hkept other (List.mem_cons_of_mem _ hmem))
        (fun other hmem => hstep other (List.mem_cons_of_mem _ hmem))
        (hkept use List.mem_cons_self db hI) hnext
    constructor
    · rintro ⟨_, hlater⟩
      have hnext : P (use.leaves db) := by
        cases uses with
        | nil => exact hlater
        | cons => exact hlater.1
      exact ⟨hfirst.mp hnext, (hrest hnext).mp hlater⟩
    · rintro ⟨hproper, hlater⟩
      exact ⟨hP, (hrest (hfirst.mpr hproper)).mpr hlater⟩

theorem Throughout.last {P : Database → Prop} {uses : List Use} {db : Database}
    (h : Throughout P uses db) : P (play uses db) := by
  induction uses generalizing db with
  | nil => exact h
  | cons use uses ih => exact ih h.2

theorem Catalog.file_addTable_self (catalog : Catalog) (file : TableFile) (name key : String) :
    (catalog.addTable file name key).file file.id = .ok file := by
  simp only [Catalog.file, entry, addTable, Assoc.get?_insert, if_true]
  rfl

namespace Database

/-- The database with the opened file registered. -/
def registering (db : Database) (file : TableFile) (name key : String) : Database :=
  { db with
    volume := db.volume.touch file.pages.name
    traffic := db.traffic ++ [{}]
    catalog := db.catalog.addTable file name key }

/-- Creating a table registers a file at that path with that schema and the pages of the database, or
changes nothing. -/
theorem createTable_cases (path name : String) (schema : Schema) (key : String) (db : Database) :
    (∃ file : TableFile, Path.resolve? path = some file.pages.name ∧ file.schema = schema ∧
      file.pageSize = db.config.pageSize ∧
        createTable path name schema key db = .ok file.id (db.registering file name key)) ∨
      ∃ e, createTable path name schema key db = .error e db := by
  have hrun : createTable path name schema key db =
      (openFile path schema db.config.pageSize >>= fun file =>
        addTable file name key >>= fun _ => pure file.id) db := rfl
  rw [hrun, Db.bind_run]
  rcases openFile_cases path schema db.config.pageSize db with
    ⟨file, hplace, hschema, hsize, _, hopen⟩ | ⟨_, e, hopen⟩
  · rw [hopen]
    exact Or.inl ⟨file, hplace, hschema, hsize, rfl⟩
  · rw [hopen]
    exact Or.inr ⟨e, rfl⟩

theorem extent_registering (db : Database) (file : TableFile) (name key : String) (table : TableId) :
    (db.registering file name key).extent table = db.extent table :=
  extent_of_same rfl fun other => Volume.contents_touch db.volume file.pages.name other

theorem Housed.registering {db : Database} (h : db.Housed) {file : TableFile}
    (hsize : file.pageSize = db.config.pageSize) (name key : String) :
    (db.registering file name key).Housed := by
  constructor
  case inOrder => exact h.inOrder
  case named =>
    intro table found hfound
    rcases file_addTable hfound with ⟨rfl, rfl⟩ | hold
    · rfl
    · exact h.named table found hold
  case sized =>
    intro table found hfound
    rcases file_addTable hfound with ⟨rfl, rfl⟩ | hold
    · exact hsize
    · exact h.sized table found hold
  case cached =>
    intro id page hpage
    refine (h.cached id page hpage).mono rfl (Nat.le_of_eq ?_)
    exact (extent_registering db file name key id.table).symm

theorem housed_onVolume (config : Config) (volume : Volume) : (onVolume config volume).Housed := by
  constructor
  case inOrder => exact Pool.inOrder_empty _
  case named =>
    intro table file hfile
    cases hfile
  case sized =>
    intro table file hfile
    cases hfile
  case cached =>
    intro id page hpage
    cases hpage

/-- A created table is registered, and then nothing but its catalog and its file's name is new; or the
creation fails and nothing is. -/
theorem leaves_create_cases (path name : String) (schema : Schema) (key : String) (db : Database) :
    (∃ file : TableFile, Path.resolve? path = some file.pages.name ∧ file.schema = schema ∧
      file.pageSize = db.config.pageSize ∧
        createTable path name schema key db = .ok file.id (db.registering file name key) ∧
          (Use.create path name schema key).leaves db = db.registering file name key) ∨
      (∃ e, createTable path name schema key db = .error e db) ∧
        (Use.create path name schema key).leaves db = db := by
  have hleaves : (Use.create path name schema key).leaves db =
      after (createTable path name schema key) db := after_ignored _ _
  rw [hleaves]
  rcases createTable_cases path name schema key db with
    ⟨file, hplace, hschema, hsize, hcreate⟩ | ⟨e, hcreate⟩
  · exact Or.inl ⟨file, hplace, hschema, hsize, hcreate, after_of_ok hcreate⟩
  · exact Or.inr ⟨⟨e, hcreate⟩, after_of_error hcreate⟩

/-- Every use that edits tuples keeps the pages housed. -/
theorem Housed.leaves {accepts : Tuple → Prop} (haccepts : ∀ t, accepts t → t.Complete) {use : Use}
    (huse : use.Edits accepts) {db : Database} (h : db.Housed) : (use.leaves db).Housed := by
  cases use with
  | create path name schema key =>
    rcases leaves_create_cases path name schema key db with
      ⟨file, _, _, hsize, _, hleaves⟩ | ⟨_, hleaves⟩ <;> rw [hleaves]
    · exact h.registering hsize name key
    · exact h
  | call c => exact h.acts haccepts (Call.leaves_acts haccepts huse h)

theorem sizes_leaves {accepts : Tuple → Prop} (haccepts : ∀ t, accepts t → t.Complete) {use : Use}
    (huse : use.Edits accepts) {db : Database} (h : db.Housed) :
    (use.leaves db).config = db.config ∧ (use.leaves db).pool.capacity = db.pool.capacity := by
  cases use with
  | create path name schema key =>
    rcases leaves_create_cases path name schema key db with
      ⟨file, _, _, _, _, hleaves⟩ | ⟨_, hleaves⟩ <;> rw [hleaves] <;> exact ⟨rfl, rfl⟩
  | call c =>
    have hsame := sameSetup_of_acts (Call.leaves_acts haccepts huse h)
    exact ⟨hsame.config, hsame.capacity⟩

/-- The columns of registered files and of cached pages are such as the table may have. -/
structure Typed (columns : TableId → List ColumnType → Prop) (db : Database) : Prop where
  registered : ∀ table file, db.catalog.file table = .ok file → columns table file.schema.types
  cached : ∀ id page, db.pool.page? id = some page → columns id.table page.schema.types

section
variable {columns : TableId → List ColumnType → Prop} {db db' : Database}

theorem Typed.of_cached (h : db.Typed columns) (hcatalog : db'.catalog = db.catalog)
    (hcached : ∀ id page, db'.pool.page? id = some page →
      ∃ old, db.pool.page? id = some old ∧ page.schema = old.schema) : db'.Typed columns := by
  constructor
  case registered =>
    rw [hcatalog]
    exact h.registered
  case cached =>
    intro id page hpage
    obtain ⟨old, hold, hschema⟩ := hcached id page hpage
    rw [hschema]
    exact h.cached id old hold

theorem Typed.replacing (h : db.Typed columns) {id : PageId} {old page : Page}
    (hcached : db.pool.page? id = some old) (hschema : page.schema = old.schema) :
    (db.replacing id page).Typed columns := by
  refine h.of_cached rfl fun other found hfound => ?_
  rw [page?_replacing hcached] at hfound
  split at hfound
  · next hid =>
    cases hfound
    exact ⟨old, by rw [hid, hcached], hschema⟩
  · exact ⟨found, hfound, rfl⟩

theorem Typed.act (h : db.Typed columns) {accepts : Tuple → Prop} (hstep : Act accepts db db') :
    db'.Typed columns := by
  have hdrop (id : PageId) : (db.without id).Typed columns :=
    h.of_cached rfl fun other page hpage => ⟨page, page?_of_without hpage, rfl⟩
  cases hstep with
  | turnover hturn =>
    cases hturn with
    | read file => exact ⟨h.registered, h.cached⟩
    | @writeBack id w =>
      refine h.of_cached rfl fun other page hpage => ?_
      rw [w.page?_result] at hpage
      split at hpage
      · next hid =>
        cases hpage
        exact ⟨w.page, by rw [hid, w.cached], rfl⟩
      · exact ⟨page, hpage, rfl⟩
    | evict => exact hdrop _
    | @load id load _ _ =>
      refine ⟨h.registered, fun other page hpage => ?_⟩
      rw [page?_holding] at hpage
      split at hpage
      · next hid =>
        cases hpage
        obtain ⟨slots, hpage, _⟩ := Page.ofImage_eq_ok load.parsed
        rw [hid, load.page_id, hpage]
        exact h.registered _ _ load.registered
      · exact h.cached other page hpage
  | insert txn _ hcached _ _ _ => exact h.replacing hcached rfl
  | delete txn _ hcached _ => exact h.replacing hcached rfl
  | append => exact ⟨h.registered, h.cached⟩
  | discard id => exact hdrop id

theorem Typed.acts (h : db.Typed columns) {accepts : Tuple → Prop}
    (hsteps : ReflTransGen (Act accepts) db db') : db'.Typed columns := by
  induction hsteps with
  | refl => exact h
  | tail _ hstep ih => exact ih.act hstep

theorem Typed.registering (h : db.Typed columns) {file : TableFile}
    (hfile : columns file.id file.schema.types) (name key : String) :
    (db.registering file name key).Typed columns := by
  refine ⟨fun table found hfound => ?_, h.cached⟩
  rcases file_addTable hfound with ⟨rfl, rfl⟩ | hold
  · exact hfile
  · exact h.registered table found hold

theorem typed_onVolume (config : Config) (volume : Volume) : (onVolume config volume).Typed columns := by
  constructor
  case registered =>
    intro table file hfile
    cases hfile
  case cached =>
    intro id page hpage
    cases hpage

/-- A use that creates its table with columns such as the table may have keeps all columns so. -/
theorem Typed.leaves {accepts : Tuple → Prop} (haccepts : ∀ t, accepts t → t.Complete) {use : Use}
    (huse : use.Edits accepts) (hcolumns : use.Keeps columns) (hhoused : db.Housed)
    (h : db.Typed columns) : (use.leaves db).Typed columns := by
  cases use with
  | create path name schema key =>
    rcases leaves_create_cases path name schema key db with
      ⟨file, hplace, hschema, _, _, hleaves⟩ | ⟨_, hleaves⟩ <;> rw [hleaves]
    · apply h.registering
      rw [hschema]
      exact hcolumns file.pages.name hplace
    · exact h
  | call c => exact h.acts (Call.leaves_acts haccepts huse hhoused)

end

/-- The columns that a table may have while the file is used: those of the file, if it is its table. -/
def ColumnsOf (file : TableFile) (table : TableId) (types : List ColumnType) : Prop :=
  table = file.id → types = file.schema.types

/-- All that is registered and cached for the table of the file has the file's columns. -/
structure Serving (file : TableFile) (db : Database) : Prop where
  housed : db.Housed
  size : file.pageSize = db.config.pageSize
  typed : db.Typed (ColumnsOf file)

section
variable {file : TableFile} {db db' : Database}

theorem Serving.acts (h : Serving file db) {accepts : Tuple → Prop}
    (haccepts : ∀ t, accepts t → t.Complete) (hsteps : ReflTransGen (Act accepts) db db') :
    Serving file db' := by
  refine ⟨h.housed.acts haccepts hsteps, ?_, h.typed.acts hsteps⟩
  rw [(sameSetup_of_acts hsteps).config]
  exact h.size

theorem Serving.turnovers (h : Serving file db) (hsteps : ReflTransGen Turnover db db') :
    Serving file db' := by
  have hacts : ReflTransGen (Act fun _ => False) db db' := acts_of_turnovers hsteps
  exact h.acts (fun _ => False.elim) hacts

theorem Serving.leaves (h : Serving file db) {accepts : Tuple → Prop}
    (haccepts : ∀ t, accepts t → t.Complete) {use : Use} (huse : use.Edits accepts)
    (hcolumns : use.Keeps (ColumnsOf file)) : Serving file (use.leaves db) := by
  refine ⟨h.housed.leaves haccepts huse, ?_, h.typed.leaves haccepts huse hcolumns h.housed⟩
  rw [(sizes_leaves haccepts huse h.housed).1]
  exact h.size

theorem Serving.fetch (h : Serving file db) (id : PageId) : Serving file (after (fetch id) db) :=
  h.turnovers (fetch_turnovers h.housed id).1

theorem Serving.fetched (h : Serving file db) {n : PageNo} {frame : Frame}
    (hfetch : Database.fetch ⟨file.id, n⟩ db = .ok frame db') :
    Serving file db' ∧ frame.page.Shaped ∧ frame.page.schema.Agrees file.schema ∧
      frame.page.size = file.pageSize := by
  obtain ⟨hpages, hhoused, hcached⟩ := h.housed.fetched hfetch
  have hserving := h.turnovers hpages
  have hlodged := hhoused.cached _ _ hcached
  refine ⟨hserving, hlodged.shaped, hserving.typed.cached _ _ hcached rfl, ?_⟩
  rw [hlodged.size, hserving.size]

end

theorem eachUse_true (uses : List Use) (db : Database) : EachUse (fun _ _ => True) uses db := by
  induction uses generalizing db with
  | nil => trivial
  | cons use uses ih => exact ⟨trivial, ih _⟩

theorem housed_play {accepts : Tuple → Prop} (haccepts : ∀ t, accepts t → t.Complete) {uses : List Use}
    (huses : ∀ use ∈ uses, use.Edits accepts) (config : Config) (volume : Volume) :
    (play uses (onVolume config volume)).Housed := by
  apply play_induction _ (eachUse_true uses _) (housed_onVolume config volume)
  intro use hmem db _ h
  exact h.leaves haccepts (huses use hmem)

end Database
end RowStore
