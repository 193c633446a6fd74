import RowStore.Proofs.PageRows
import RowStore.Proofs.Runs

/-!
# Tables without pages in memory

A sheet is what a table is to its users: a number of pages and a finite map from places, which are
pages and slots, to rows. A row goes to the first free place, page by page in slot order, or behind
the last page when all places are taken. Calls that only read or write back change no sheet.
-/
namespace RowStore

/-- A page number and a slot number. -/
abbrev Place := Nat × Nat

structure Sheet where
  pages : Nat := 0
  cells : Assoc Place (List Field) := ⟨[]⟩
  deriving DecidableEq

/-- The place comes first in the order of pages, and within a page in the order of slots. -/
def Place.Earlier (a b : Place) : Prop := a.1 < b.1 ∨ a.1 = b.1 ∧ a.2 < b.2

namespace Sheet

def places (sheet : Sheet) (slots : Nat) : List Place :=
  (List.range sheet.pages).flatMap fun page => (List.range slots).map fun slot => (page, slot)

/-- The first place without a row. -/
def free? (sheet : Sheet) (slots : Nat) : Option Place :=
  (sheet.places slots).find? fun place => !sheet.cells.contains place

def insert (sheet : Sheet) (slots : Nat) (row : List Field) : Sheet :=
  match sheet.free? slots with
  | some place => { sheet with cells := sheet.cells.insert place row }
  | none => { pages := sheet.pages + 1, cells := sheet.cells.insert (sheet.pages, 0) row }

def delete (sheet : Sheet) (place : Place) : Sheet :=
  { sheet with cells := sheet.cells.erase place }

/-- The rows are in the slots of the pages. -/
def Bounded (sheet : Sheet) (slots : Nat) : Prop :=
  ∀ place, sheet.cells.get? place ≠ none → place.1 < sheet.pages ∧ place.2 < slots

theorem mem_places {sheet : Sheet} {slots : Nat} {place : Place} :
    place ∈ sheet.places slots ↔ place.1 < sheet.pages ∧ place.2 < slots := by
  obtain ⟨page, slot⟩ := place
  simp [places]

theorem pairwise_places (sheet : Sheet) (slots : Nat) :
    (sheet.places slots).Pairwise Place.Earlier := by
  rw [places, List.pairwise_flatMap]
  constructor
  · intro page _
    rw [List.pairwise_map]
    exact List.pairwise_lt_range.imp fun h => Or.inr ⟨rfl, h⟩
  · apply List.pairwise_lt_range.imp
    intro a b hlt x hx y hy
    obtain ⟨slot, _, rfl⟩ := List.mem_map.mp hx
    obtain ⟨other, _, rfl⟩ := List.mem_map.mp hy
    exact Or.inl hlt

theorem nodup_places (sheet : Sheet) (slots : Nat) : (sheet.places slots).Nodup := by
  apply (sheet.pairwise_places slots).imp
  rintro a b hearlier rfl
  simp only [Place.Earlier] at hearlier
  omega

theorem contains_eq_false_iff (sheet : Sheet) (place : Place) :
    (!sheet.cells.contains place) = true ↔ sheet.cells.get? place = none := by
  rw [Assoc.contains]
  cases sheet.cells.get? place <;> simp

theorem free?_eq_none_iff (sheet : Sheet) (slots : Nat) :
    sheet.free? slots = none ↔
      ∀ place : Place, place.1 < sheet.pages → place.2 < slots → sheet.cells.get? place ≠ none := by
  rw [free?, List.find?_eq_none]
  constructor
  · intro h place hpage hslot hnone
    exact h place (mem_places.mpr ⟨hpage, hslot⟩) ((contains_eq_false_iff _ _).mpr hnone)
  · intro h place hmem hfree
    obtain ⟨hpage, hslot⟩ := mem_places.mp hmem
    exact h place hpage hslot ((contains_eq_false_iff _ _).mp hfree)

theorem free?_eq_some_iff (sheet : Sheet) (slots : Nat) (place : Place) :
    sheet.free? slots = some place ↔
      (place.1 < sheet.pages ∧ place.2 < slots) ∧ sheet.cells.get? place = none ∧
        ∀ other : Place, other.1 < sheet.pages → other.2 < slots → other.Earlier place →
          sheet.cells.get? other ≠ none := by
  have hsound {place : Place} (h : sheet.free? slots = some place) :
      (place.1 < sheet.pages ∧ place.2 < slots) ∧ sheet.cells.get? place = none ∧
        ∀ other : Place, other.1 < sheet.pages → other.2 < slots → other.Earlier place →
          sheet.cells.get? other ≠ none := by
    obtain ⟨hfree, before, rest, hplaces, hbefore⟩ := List.find?_eq_some_iff_append.mp h
    refine ⟨mem_places.mp ?_, (contains_eq_false_iff _ _).mp hfree, ?_⟩
    · rw [hplaces]
      exact List.mem_append_right _ List.mem_cons_self
    intro other hpage hslot hearlier hnone
    have hmem := mem_places.mpr ⟨hpage, hslot⟩
    have hpairs := sheet.pairwise_places slots
    rw [hplaces] at hmem hpairs
    rcases List.mem_append.mp hmem with hmem | hmem
    · have htaken := hbefore other hmem
      rw [(contains_eq_false_iff _ _).mpr hnone] at htaken
      cases htaken
    · -- What stands behind the place in the list is later than the place.
      rcases List.mem_cons.mp hmem with rfl | hmem
      · rcases hearlier with h | ⟨_, h⟩ <;> exact Nat.lt_irrefl _ h
      · have hlater := List.rel_of_pairwise_cons (List.pairwise_append.mp hpairs).2.1 hmem
        simp only [Place.Earlier] at hearlier hlater
        omega
  constructor
  · exact hsound
  · rintro ⟨⟨hpage, hslot⟩, hnone, hleast⟩
    cases hfound : sheet.free? slots with
    | none => exact absurd hnone ((free?_eq_none_iff _ _).mp hfound place hpage hslot)
    | some found =>
      obtain ⟨⟨hfoundPage, hfoundSlot⟩, hfoundNone, hfoundLeast⟩ := hsound hfound
      have hnotBefore : ¬ found.Earlier place :=
        fun h => hleast found hfoundPage hfoundSlot h hfoundNone
      have hnotAfter : ¬ place.Earlier found := fun h => hfoundLeast place hpage hslot h hnone
      simp only [Place.Earlier] at hnotBefore hnotAfter
      have hsame : found = place := Prod.ext (by omega) (by omega)
      rw [hsame]

end Sheet

/-- The sheets of all tables. -/
abbrev Sheets := TableId → Sheet

/-- Another sheet for one table. -/
def Sheets.put (sheets : Sheets) (table : TableId) (sheet : Sheet) : Sheets := fun other =>
  if other = table then sheet else sheets other

namespace Sheets

theorem put_put (sheets : Sheets) (table : TableId) (sheet other : Sheet) :
    (sheets.put table sheet).put table other = sheets.put table other := by
  funext found
  simp only [put]
  split <;> rfl

theorem put_eq_self (sheets : Sheets) (table : TableId) : sheets.put table (sheets table) = sheets := by
  funext found
  rw [put]
  split
  · next heq => rw [heq]
  · rfl

@[simp] theorem put_self (sheets : Sheets) (table : TableId) (sheet : Sheet) :
    sheets.put table sheet table = sheet := if_pos rfl

end Sheets

/-- What a call does to the sheets, unless it is refused. A call that may lose or change pages in
other ways is not described. -/
def Call.onSheets (catalog : Catalog) : Call → Sheets → Option Sheets
  | .fetch id, sheets =>
    match catalog.file id.table with
    | .ok _ => if id.number.toNat < (sheets id.table).pages then some sheets else none
    | .error _ => none
  | .insert _ table t, sheets =>
    match catalog.file table with
    | .ok file =>
      if t.schema.Agrees file.schema then
        some (Sheets.put sheets table ((sheets table).insert file.slotCount t.fields))
      else none
    | .error _ => none
  | .delete _ t, sheets =>
    match t.record with
    | none => none
    | some record =>
      match catalog.file record.page.table with
      | .ok _ =>
        let place : Place := (record.page.number.toNat, record.slot.toNat)
        if (sheets record.page.table).cells.contains place then
          some (Sheets.put sheets record.page.table ((sheets record.page.table).delete place))
        else none
      | .error _ => none
  | .flushPage _, sheets | .flushTransaction _, sheets | .flushAll, sheets | .flushList _, sheets
  | .complete _ true, sheets => some sheets
  | .update _ _ _, _ | .discard _, _ | .complete _ false, _ => none

/-- The sheets after the calls; a refused call changes nothing. -/
def runSheets (catalog : Catalog) : List Call → Sheets → Sheets
  | [], sheets => sheets
  | call :: calls, sheets => runSheets catalog calls ((call.onSheets catalog sheets).getD sheets)

end RowStore
