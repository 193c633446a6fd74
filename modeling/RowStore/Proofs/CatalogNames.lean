import Mathlib.Logic.Basic
import Mathlib.Logic.ExistsUnique
import RowStore.Catalog

/-!
# Names and tables of a catalog

A catalog keeps its tables under their ids and their ids under their names. Registering a file changes
both maps, in a way that depends on whether the name is in use and whether the file is known. What is
kept is that a name leads to an id exactly when the table of that id has the name.
-/
namespace RowStore
namespace Catalog
variable {catalog : Catalog} {file : TableFile} {name key : String}

inductive Edit where
  | add (file : TableFile) (name key : String)
  | clear

def Edit.perform : Edit → Catalog → Catalog
  | .add file name key, catalog => catalog.addTable file name key
  | .clear, catalog => catalog.clear

/-- The catalog after the edits. -/
def edited : List Edit → Catalog → Catalog
  | [], catalog => catalog
  | edit :: edits, catalog => edited edits (edit.perform catalog)

/-- The name that the id is registered under. -/
def nameOf? (catalog : Catalog) (id : TableId) : Option String :=
  (catalog.tables.get? id).map TableEntry.name

/-- A name leads to an id exactly when the table of the id has the name. -/
structure Paired (catalog : Catalog) : Prop where
  ids : ∀ name id, catalog.ids.get? name = some id ↔ catalog.nameOf? id = some name

/-- The tables without the one that holds the name, unless the file is its own. -/
def withoutHolder (catalog : Catalog) (file : TableFile) (name : String) : Assoc TableId TableEntry :=
  match catalog.ids.get? name with
  | some old => if old = file.id then catalog.tables else catalog.tables.erase old
  | none => catalog.tables

theorem get?_withoutHolder_self (catalog : Catalog) (file : TableFile) (name : String) :
    (catalog.withoutHolder file name).get? file.id = catalog.tables.get? file.id := by
  rw [withoutHolder]
  split
  · split
    · rfl
    · next hold => rw [Assoc.get?_erase, if_neg (Ne.symm hold)]
  · rfl

theorem get?_withoutHolder_of_ne {id : TableId} (hid : id ≠ file.id) :
    (catalog.withoutHolder file name).get? id =
      if catalog.ids.get? name = some id then none else catalog.tables.get? id := by
  rw [withoutHolder]
  split
  · next old hheld =>
    rw [hheld]
    split
    · next hold => rw [if_neg (by rw [hold, Option.some.injEq]; exact Ne.symm hid)]
    · rw [Assoc.get?_erase]
      exact if_congr (by rw [Option.some.injEq, eq_comm]) rfl rfl
  · next hfree => rw [if_neg (by simp [hfree])]

theorem tables_addTable (catalog : Catalog) (file : TableFile) (name key : String) :
    (catalog.addTable file name key).tables =
      (catalog.withoutHolder file name).insert file.id ⟨file, name, key⟩ := rfl

theorem ids_addTable (catalog : Catalog) (file : TableFile) (name key : String) :
    (catalog.addTable file name key).ids =
      match catalog.tables.get? file.id with
      | some entry =>
        if entry.name = name then catalog.ids.insert name file.id
        else (catalog.ids.insert name file.id).erase entry.name
      | none => catalog.ids.insert name file.id := by
  rw [← get?_withoutHolder_self catalog file name]
  rfl

/-- The file that was registered is found under its id; of the others, the table that held the name is
gone. -/
theorem get?_tables_addTable (catalog : Catalog) (file : TableFile) (name key : String)
    (id : TableId) : (catalog.addTable file name key).tables.get? id =
      if id = file.id then some ⟨file, name, key⟩
      else if catalog.ids.get? name = some id then none else catalog.tables.get? id := by
  rw [tables_addTable, Assoc.get?_insert]
  split
  · rfl
  · next hid => exact get?_withoutHolder_of_ne hid

/-- The name leads to the file that was registered under it; of the others, the name that the file had
is gone. -/
theorem get?_ids_addTable (catalog : Catalog) (file : TableFile) (name key other : String) :
    (catalog.addTable file name key).ids.get? other =
      if other = name then some file.id
      else if catalog.nameOf? file.id = some other then none else catalog.ids.get? other := by
  rw [ids_addTable, nameOf?]
  cases catalog.tables.get? file.id with
  | none =>
    dsimp only
    rw [Assoc.get?_insert, Option.map_none, if_neg (nofun : ¬none = some other)]
  | some entry =>
    dsimp only
    rw [Option.map_some]
    simp only [Option.some.injEq]
    by_cases hsame : entry.name = name
    · rw [if_pos hsame, Assoc.get?_insert, hsame]
      by_cases hother : other = name
      · rw [if_pos hother, if_pos hother]
      · rw [if_neg hother, if_neg hother, if_neg (Ne.symm hother)]
    · rw [if_neg hsame, Assoc.get?_erase, Assoc.get?_insert]
      by_cases hother : other = name
      · rw [if_neg (by rw [hother]; exact Ne.symm hsame), if_pos hother, if_pos hother]
      · rw [if_neg hother, if_neg hother]
        exact if_congr eq_comm rfl rfl

theorem nameOf?_addTable (catalog : Catalog) (file : TableFile) (name key : String) (id : TableId) :
    (catalog.addTable file name key).nameOf? id =
      if id = file.id then some name
      else if catalog.ids.get? name = some id then none else catalog.nameOf? id := by
  rw [nameOf?, get?_tables_addTable]
  split
  · rfl
  · split
    · rfl
    · rfl

theorem Paired.empty : Paired {} := ⟨fun _ _ => iff_of_false (by simp) (by simp [nameOf?])⟩

theorem Paired.addTable (h : catalog.Paired) (file : TableFile) (name key : String) :
    (catalog.addTable file name key).Paired := by
  constructor
  intro other id
  rw [get?_ids_addTable, nameOf?_addTable]
  by_cases hother : other = name <;> by_cases hid : id = file.id
  · simp [hother, hid]
  · -- the table that held the name is gone, and no other table had it
    rw [if_pos hother, if_neg hid, hother]
    have hheld := h.ids name id
    split
    · simp [Ne.symm hid]
    · next hnot => simp [hheld.not.mp hnot, Ne.symm hid]
  · -- the name that the file had is gone, and no other name led to it
    rw [if_neg hother, if_pos hid, hid]
    have hnamed := h.ids other file.id
    split
    · simp [Ne.symm hother]
    · next hnot => simp [hnamed.not.mpr hnot, Ne.symm hother]
  · rw [if_neg hother, if_neg hid]
    have hpair := h.ids other id
    split
    · next hnamed =>
      have hleads := (h.ids other file.id).mpr hnamed
      have hfree : ¬catalog.nameOf? id = some other := by
        rw [← hpair, hleads, Option.some.injEq]
        exact Ne.symm hid
      split
      · simp
      · simp [hfree]
    · split
      · next hheld =>
        have hfree : ¬catalog.ids.get? other = some id := by
          rw [hpair, (h.ids name id).mp hheld, Option.some.injEq]
          exact Ne.symm hother
        simp [hfree]
      · exact hpair

theorem Paired.perform (h : catalog.Paired) (edit : Edit) : (edit.perform catalog).Paired := by
  cases edit with
  | add file name key => exact h.addTable file name key
  | clear => exact Paired.empty

theorem Paired.edited {edits : List Edit} (h : catalog.Paired) : (edited edits catalog).Paired := by
  induction edits generalizing catalog with
  | nil => exact h
  | cons edit edits ih => exact ih (h.perform edit)

theorem tableId_eq_ok {id : TableId} :
    catalog.tableId name = .ok id ↔ catalog.ids.get? name = some id := by
  rw [tableId]
  cases catalog.ids.get? name with
  | none => simp
  | some found => simp

theorem tableName_eq_ok {id : TableId} :
    catalog.tableName id = .ok name ↔ catalog.nameOf? id = some name := by
  rw [tableName, entry, nameOf?]
  cases catalog.tables.get? id with
  | none => simp [Except.map]
  | some found => simp [Except.map]

theorem mem_tableIds {id : TableId} :
    id ∈ catalog.tableIds ↔ ∃ name, catalog.nameOf? id = some name := by
  rw [tableIds, ← Assoc.contains_iff_mem_keys, Assoc.contains, nameOf?]
  cases catalog.tables.get? id with
  | none => simp
  | some found => simp

/-- Names and ids lead to each other, and each listed table is found under one name. -/
structure Bijective (catalog : Catalog) : Prop where
  tableId_iff : ∀ name id, catalog.tableId name = .ok id ↔ catalog.tableName id = .ok name
  reachable : ∀ id ∈ catalog.tableIds, ∃! name, catalog.tableId name = .ok id
  registered : ∀ name id, catalog.tableId name = .ok id → id ∈ catalog.tableIds

theorem Paired.bijective (h : catalog.Paired) : catalog.Bijective := by
  constructor
  · intro name id
    rw [tableId_eq_ok, tableName_eq_ok]
    exact h.ids name id
  · intro id hmem
    obtain ⟨name, hname⟩ := mem_tableIds.mp hmem
    refine ⟨name, tableId_eq_ok.mpr ((h.ids name id).mpr hname), fun other hother => ?_⟩
    have heq := (h.ids other id).mp (tableId_eq_ok.mp hother)
    rw [hname, Option.some.injEq] at heq
    exact heq.symm
  · intro name id hid
    exact mem_tableIds.mpr ⟨name, (h.ids name id).mp (tableId_eq_ok.mp hid)⟩

/-- What registering a file under a name changes. Only the table that held the name and the name that
the file had are gone; every other table and name is as it was. -/
structure Registers (before after : Catalog) (file : TableFile) (name key : String) : Prop where
  id_of_name : after.tableId name = .ok file.id
  file_of_id : after.file file.id = .ok file
  name_of_id : after.tableName file.id = .ok name
  key_of_id : after.primaryKey file.id = .ok key
  holder : ∀ id ≠ file.id, before.tableId name = .ok id →
    after.entry id = .error (.tableNotFound id)
  others : ∀ id ≠ file.id, before.tableId name ≠ .ok id → after.entry id = before.entry id
  oldName : ∀ other ≠ name, before.tableName file.id = .ok other →
    after.tableId other = .error (.tableNameNotFound other)
  otherNames : ∀ other ≠ name, before.tableName file.id ≠ .ok other →
    after.tableId other = before.tableId other

theorem registers_addTable (catalog : Catalog) (file : TableFile) (name key : String) :
    catalog.Registers (catalog.addTable file name key) file name key := by
  have hentry : (catalog.addTable file name key).entry file.id = .ok ⟨file, name, key⟩ := by
    rw [entry, get?_tables_addTable, if_pos rfl]
  constructor
  · rw [tableId_eq_ok, get?_ids_addTable, if_pos rfl]
  · rw [Catalog.file, hentry]
    rfl
  · rw [tableName, hentry]
    rfl
  · rw [primaryKey, hentry]
    rfl
  · intro id hid hheld
    rw [entry, get?_tables_addTable, if_neg hid, if_pos (tableId_eq_ok.mp hheld)]
  · intro id hid hheld
    rw [entry, get?_tables_addTable, if_neg hid, if_neg fun h => hheld (tableId_eq_ok.mpr h), entry]
  · intro other hother hnamed
    rw [tableId, get?_ids_addTable, if_neg hother, if_pos (tableName_eq_ok.mp hnamed)]
  · intro other hother hnamed
    rw [tableId, get?_ids_addTable, if_neg hother, if_neg fun h => hnamed (tableName_eq_ok.mpr h),
      tableId]

/-- However files were registered and tables cleared, the names of a catalog and its tables lead to each
other, and the next file that is registered takes its name and drops its old one, and nothing else. -/
theorem names_bijective (edits : List Edit) :
    (edited edits {}).Bijective ∧ ∀ file name key,
      (edited edits {}).Registers ((edited edits {}).addTable file name key) file name key :=
  ⟨Paired.empty.edited.bijective, registers_addTable (edited edits {})⟩

/-- A file takes the name of another one and gives its own up. -/
example :
    let a : TableFile := ⟨0, ⟨"a", 64⟩, ⟨[{ type := .integer }], nofun⟩, by decide, by decide⟩
    let b : TableFile := ⟨1, ⟨"b", 64⟩, ⟨[{ type := .integer }], nofun⟩, by decide, by decide⟩
    let after := edited [.add a "x" "id", .add b "y" "id", .add a "y" "key"] {}
    after.tableIds = [a.id] ∧ after.tableId "y" = .ok a.id ∧
      after.tableId "x" = .error (.tableNameNotFound "x") ∧
      after.file b.id = .error (.tableNotFound b.id) :=
  ⟨rfl, rfl, rfl, rfl⟩

end Catalog
end RowStore
