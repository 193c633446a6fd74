import RowStore.Proofs.CatalogNames
import RowStore.Proofs.Registrations
import RowStore.Proofs.Reopening
import RowStore.Proofs.Transparency

/-!
# Databases in regular use

In regular use no table is created over cached pages: none of its own file is cached, and none of the
table whose name it takes. Cache and disk then agree whatever the files contain, so what readers see of
a table is a sheet. If all these rows fit the columns of their tables, no page stands in the way of any
other one.
-/
namespace RowStore
open Relation

namespace Assoc
variable {α β : Type} [DecidableEq α]

/-- The map that has at each of the keys what the function says. -/
def ofKeys (keys : List α) (f : α → Option β) : Assoc α β :=
  ⟨keys.filterMap fun key => (f key).map fun value => (key, value)⟩

theorem get?_ofKeys_eq_some_iff {keys : List α} {f : α → Option β} {key : α} {value : β} :
    (ofKeys keys f).get? key = some value ↔ key ∈ keys ∧ f key = some value := by
  simp only [get?, ofKeys]
  induction keys with
  | nil => simp [lookup]
  | cons first keys ih =>
    cases hfirst : f first with
    | none =>
      rw [List.filterMap_cons_none (by rw [hfirst, Option.map_none]), ih, List.mem_cons]
      by_cases hkey : key = first <;> simp [hkey, hfirst]
    | some found =>
      rw [List.filterMap_cons_some (by rw [hfirst, Option.map_some]), lookup, List.mem_cons]
      by_cases hkey : first = key
      · simp [← hkey, hfirst]
      · rw [if_neg hkey, ih]
        simp [Ne.symm hkey]

end Assoc

namespace Sheet

/-- The sheet that has at each place what the function says. -/
def ofPlaces (pages slots : Nat) (f : Place → Option (List Field)) : Sheet :=
  { pages, cells := .ofKeys (({ pages } : Sheet).places slots) f }

theorem get?_ofPlaces (pages slots : Nat) (f : Place → Option (List Field)) (place : Place) :
    (ofPlaces pages slots f).cells.get? place =
      if place.1 < pages ∧ place.2 < slots then f place else none := by
  apply Option.ext
  intro row
  rw [ofPlaces, Assoc.get?_ofKeys_eq_some_iff, mem_places]
  split <;> simp [*]

end Sheet

/-- No table is created while pages of it, or of the table that has its name, are cached. Calls edit
tuples of tables whose pages have numbers. -/
def Use.Regular : Use → Database → Prop
  | .create path name _ _, db => ∀ id page, db.pool.page? id = some page →
      db.catalog.ids.get? name ≠ some id.table ∧
        ∀ place, Path.resolve? path = some place → id.table ≠ .file place
  | .call c, db => c.EditsTuples ∧ c.IntoSmall db

theorem Call.Plain.editsTuples {call : Call} (h : call.Plain) : call.EditsTuples := by
  cases call with
  | insert txn table t => exact Tuple.Valid.built h
  | update txn id edit => exact h.elim
  | _ => trivial

/-- The table keeps its file unless that is the file that is registered, or has its name. -/
theorem Catalog.file_addTable_of_ne {catalog : Catalog} {file : TableFile} {name : String} {table : TableId}
    (htable : table ≠ file.id) (hname : catalog.ids.get? name ≠ some table) (key : String) :
    (catalog.addTable file name key).file table = catalog.file table := by
  have hothers := (registers_addTable catalog file name key).others table htable
    fun hheld => hname (tableId_eq_ok.mp hheld)
  rw [Catalog.file, hothers, ← Catalog.file]

namespace Database
variable {db : Database}

/-- The databases that regular use leads to from one in which nothing was loaded. -/
inductive Regular : Database → Prop
  | fresh {db : Database} (fresh : db.Fresh) : Regular db
  | use {db : Database} (regular : Regular db) (use : Use) (proper : use.Regular db) :
      Regular (use.leaves db)

theorem Coherent.registering (h : db.Coherent) {file : TableFile} {name : String}
    (hspared : ∀ id page, db.pool.page? id = some page →
      db.catalog.ids.get? name ≠ some id.table ∧ id.table ≠ file.id) (key : String) :
    (db.registering file name key).Coherent := by
  constructor
  case inOrder => exact h.inOrder
  case named =>
    intro table found hfound
    rcases file_addTable hfound with ⟨rfl, rfl⟩ | hold
    · rfl
    · exact h.named table found hold
  case cached =>
    intro id page hpage
    obtain ⟨hname, htable⟩ := hspared id page hpage
    obtain ⟨home, hsound⟩ := h.cached id page hpage
    have hbytes := Volume.bytes_touch db.volume file.pages.name home.pages.name
    refine ⟨home, ?_, hsound.identified, hsound.wellFormed, ?_, fun hclean => ?_⟩
    · exact (Catalog.file_addTable_of_ne htable hname key).trans hsound.registered
    · change id.number.toNat < home.pageTotal (db.volume.touch file.pages.name)
      rw [TableFile.pageTotal, PageFile.pageTotal, Volume.contents_touch]
      exact hsound.counted
    · exact (TableFile.rowsOnDisk_of_bytes rfl rfl hbytes _).trans (hsound.clean hclean)

theorem Coherent.use (h : db.Coherent) {use : Use} (huse : use.Regular db) : (use.leaves db).Coherent := by
  cases use with
  | create path name schema key =>
    rcases leaves_create_cases path name schema key db with
      ⟨file, hplace, _, _, _, hleaves⟩ | ⟨_, hleaves⟩ <;> rw [hleaves]
    · apply h.registering
      exact fun id page hpage => ⟨(huse id page hpage).1, (huse id page hpage).2 _ hplace⟩
    · exact h
  | call c => exact h.steps (Call.leaves_steps huse.1 h huse.2)

theorem Regular.coherent (h : db.Regular) : db.Coherent := by
  induction h with
  | fresh hfresh => exact hfresh.coherent
  | use _ _ hproper ih => exact ih.use hproper

theorem opened_create (path name : String) (schema : Schema) (key : String)
    (h : ∀ table file, db.catalog.file table = .ok file → file.serial < db.traffic.length)
    (table : TableId) (file : TableFile)
    (hfile : ((Use.create path name schema key).leaves db).catalog.file table = .ok file) :
    file.serial < ((Use.create path name schema key).leaves db).traffic.length := by
  have hleaves : (Use.create path name schema key).leaves db =
      after (openFile path schema db.config.pageSize >>= fun opened =>
        addTable opened name key >>= fun _ => pure opened.id) db := after_ignored _ _
  rw [hleaves, after_bind] at hfile ⊢
  rcases openFile_cases path schema db.config.pageSize db with ⟨opened, _, _, _, hserial, hopen⟩ |
    ⟨_, e, hopen⟩
  · rw [hopen] at hfile ⊢
    change file.serial < (db.traffic ++ [({} : Traffic)]).length
    rw [List.length_append]
    rcases file_addTable hfile with ⟨_, rfl⟩ | hold
    · exact Nat.lt_add_one_of_le (Nat.le_of_eq hserial)
    · exact Nat.lt_add_right 1 (h table file hold)
  · rw [hopen] at hfile ⊢
    exact h table file hfile

theorem Regular.opened (h : db.Regular) (table : TableId) (file : TableFile)
    (hfile : db.catalog.file table = .ok file) : file.serial < db.traffic.length := by
  induction h generalizing table file with
  | fresh hfresh => exact hfresh.opened table file hfile
  | @use db hregular use _ ih =>
    cases use with
    | create path name schema key => exact opened_create path name schema key ih table file hfile
    | call c =>
      have hsame : SameTables db (c.leaves db) := (inOrder_run [c] hregular.coherent.inOrder).2
      change (c.leaves db).catalog.file table = .ok file at hfile
      change file.serial < (c.leaves db).traffic.length
      rw [hsame.files]
      exact ih table file (by rwa [← hsame.catalog])

theorem Regular.run {calls : List Call} (h : db.Regular) (hcalls : ∀ call ∈ calls, call.EditsTuples)
    (hsmall : StaysSmall calls db) : (run calls db).Regular := by
  induction calls generalizing db with
  | nil => exact h
  | cons call calls ih =>
    apply ih _ (fun other hmem => hcalls other (List.mem_cons_of_mem _ hmem)) hsmall.2
    exact h.use (.call call) ⟨hcalls call List.mem_cons_self, call.intoSmall_of_small hsmall.1⟩

/-- All rows that readers see fit the columns of their tables. -/
def RowsFit (db : Database) : Prop :=
  ∀ file, db.catalog.file file.id = .ok file → ∀ n : PageNo, n.toNat < file.pageTotal db.volume →
    ∀ row, some row ∈ db.rowsAt file n → file.Holds row

/-- The row that readers see at a place of the file. -/
def rowAt? (db : Database) (file : TableFile) (place : Place) : Option (List Field) :=
  (db.rowsAt file (UInt32.ofNat place.1))[place.2]?.join

/-- What readers see of all tables. -/
def sheets (db : Database) : Sheets := fun table =>
  match db.catalog.file table with
  | .ok file => .ofPlaces (file.pageTotal db.volume) file.slotCount (db.rowAt? file)
  | .error _ => {}

theorem Coherent.shows_sheets (h : db.Coherent) : Matches db db.sheets := by
  intro file hfile
  have hsheet : db.sheets file.id =
      .ofPlaces (file.pageTotal db.volume) file.slotCount (db.rowAt? file) := by
    rw [sheets, hfile]
  rw [hsheet]
  refine ⟨rfl, fun page slot => ?_⟩
  rw [Sheet.get?_ofPlaces, ← h.length_rowsAt hfile (UInt32.ofNat page)]
  change (if page < file.pageTotal db.volume ∧ _ then _ else none) =
    if page < file.pageTotal db.volume then _ else none
  by_cases hpage : page < file.pageTotal db.volume
  · rw [if_pos hpage]
    by_cases hslot : slot < (db.rowsAt file (UInt32.ofNat page)).length
    · rw [if_pos ⟨hpage, hslot⟩, rowAt?]
    · rw [if_neg fun hplace => hslot hplace.2, List.getElem?_eq_none (Nat.le_of_not_lt hslot),
        Option.join_none]
  · rw [if_neg hpage, if_neg fun hplace => hpage hplace.1]

theorem Regular.ready (h : db.Regular) (hroom : 0 < db.pool.capacity) (hfits : db.RowsFit) : db.Ready :=
  ⟨h.coherent, hroom, hfits⟩

/-- Tables that were filled from empty files by valid tuples are in regular use, and their rows fit. -/
theorem Fresh.regular_run {start : Database} (h : start.Fresh) (hroom : 0 < start.pool.capacity)
    (hempty : ∀ file, start.catalog.file file.id = .ok file → start.volume.bytes file.pages.name = [])
    {calls : List Call} (hcalls : ∀ call ∈ calls, call.Plain) (hsmall : StaysSmall calls start) :
    (RowStore.run calls start).Regular ∧ (RowStore.run calls start).RowsFit ∧
      Matches (RowStore.run calls start) (runSheets start.catalog calls fun _ => {}) := by
  obtain ⟨hready, hmatches⟩ := h.ready hroom hempty
  obtain ⟨hready', _, hmatches'⟩ := hready.simulated_run hcalls hsmall hmatches
  have hregular := (Regular.fresh h).run (fun call hmem => (hcalls call hmem).editsTuples) hsmall
  exact ⟨hregular, hready'.holds, hmatches'⟩

theorem capacity_withTable (config : Config) (path : String) (schema : Schema) :
    (withTable config path schema).pool.capacity = config.poolPages := by
  change (after (openFile path schema config.pageSize >>= fun file =>
    Database.addTable file path "" >>= fun _ => pure file.id) (Database.new config)).pool.capacity = _
  rw [after_bind]
  rcases openFile_cases path schema config.pageSize (Database.new config) with
    ⟨file, _, _, _, _, hopen⟩ | ⟨_, e, hopen⟩ <;> rw [hopen] <;> rfl

/-- A new table, filled by calls through a pool that has a frame or more. -/
theorem regular_withTable {config : Config} (hframes : 0 < config.poolPages) (path : String)
    (schema : Schema) {calls : List Call} (hcalls : ∀ call ∈ calls, call.Plain)
    (hsmall : StaysSmall calls (withTable config path schema)) {db : Database}
    (hdb : RowStore.run calls (withTable config path schema) = db) :
    db.Regular ∧ 0 < db.pool.capacity ∧ db.Small ∧ db.RowsFit ∧
      Matches db (runSheets (withTable config path schema).catalog calls fun _ => {}) := by
  subst hdb
  have hfresh := fresh_withTable config path schema
  have hroom : 0 < (withTable config path schema).pool.capacity := by rwa [capacity_withTable]
  obtain ⟨hregular, hfits, hmatches⟩ :=
    hfresh.regular_run hroom (fun _ _ => bytes_withTable config path schema _) hcalls hsmall
  have htables := (inOrder_run calls hfresh.coherent.inOrder).2
  exact ⟨hregular, htables.capacity ▸ hroom, hsmall.last, hfits, hmatches⟩

/-- The file "t.dat" was empty, and one integer was inserted and committed. The only frame has a dirty page
of another table, and a text on it is wider than its column, as it was read from a byte that is no text. -/
def behindWideText : Database :=
  let integers : Schema := ⟨[{ type := .integer, name := some "a" }], List.cons_ne_nil _ _⟩
  let texts : Schema := ⟨[{ type := .char 1, name := some "a" }], List.cons_ne_nil _ _⟩
  let image : Bytes := [3, 0, 0, 0, 1, 0xFF, 0, 0, 0, 1, 0x41]
  play [.create "b.dat" "b" texts "a", .create "t.dat" "t" integers "a",
    .call (.insert ⟨1⟩ (.file "t.dat") ⟨integers, [.int 7], none⟩), .call (.complete ⟨1⟩ true),
    .call (.delete ⟨1⟩ ⟨texts, [], some ⟨⟨.file "b.dat", 0⟩, 1⟩⟩)]
    (onVolume { pageSize := 11, poolPages := 1 } (({} : Volume).store "b.dat" (Contents.ofBytes image)))

end Database
end RowStore
