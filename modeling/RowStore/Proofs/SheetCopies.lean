import Mathlib.Data.List.Basic
import RowStore.Proofs.Sheets

/-!
# Rows copied within a sheet

The rows of a sheet are read page by page, and the rows of each page are inserted into the same sheet
before the next page is read. Copies fill the free places from the front, so what a page has when it is
read depends on how many places before it were free. The main statements say that exactly the rows of
the sheet are copied if no copy comes to a page that is still to be read, and more rows otherwise. Where
only some rows are accepted, their copies are no more than the places of the pages that are read.
-/
namespace RowStore

theorem perm_filterMap_of_set {α β : Type} [DecidableEq α] {places : List α} (hnodup : places.Nodup)
    {place : α} (hmem : place ∈ places) {f g : α → Option β} {value : β} (hfree : f place = none)
    (hset : g place = some value) (hsame : ∀ other, other ≠ place → g other = f other) :
    (places.filterMap g).Perm (value :: places.filterMap f) := by
  have hperm := List.perm_cons_erase hmem
  have hrest : (places.erase place).filterMap g = (places.erase place).filterMap f := by
    apply List.filterMap_congr
    rintro other hother
    apply hsame
    rintro rfl
    exact hnodup.not_mem_erase hother
  have hbefore := hperm.filterMap f
  have hafter := hperm.filterMap g
  rw [List.filterMap_cons_none hfree] at hbefore
  rw [List.filterMap_cons_some hset, hrest] at hafter
  exact hafter.trans (hbefore.symm.cons value)

theorem sublist_filterMap_of_imp {α β : Type} {f g : α → Option β}
    (h : ∀ a b, f a = some b → g a = some b) (places : List α) :
    (places.filterMap f).Sublist (places.filterMap g) := by
  induction places with
  | nil => exact .slnil
  | cons place places ih =>
    cases hf : f place with
    | none =>
      rw [List.filterMap_cons_none hf]
      exact ih.trans ((List.sublist_cons_self place places).filterMap g)
    | some value =>
      rw [List.filterMap_cons_some hf, List.filterMap_cons_some (h place value hf)]
      exact ih.cons_cons value

namespace Sheet

/-- The rows in page and slot order. -/
def rows (sheet : Sheet) (slots : Nat) : List (List Field) :=
  (sheet.places slots).filterMap sheet.cells.get?

/-- The first pages of the sheet. -/
def first (sheet : Sheet) (pages : Nat) : Sheet := { sheet with pages }

def pageRows (sheet : Sheet) (slots page : Nat) : List (List Field) :=
  (List.range slots).filterMap fun slot => sheet.cells.get? (page, slot)

/-- Inserts the rows one after the other. -/
def insertAll (sheet : Sheet) (slots : Nat) (rows : List (List Field)) : Sheet :=
  rows.foldl (fun sheet row => sheet.insert slots row) sheet

/-- How many rows the first pages have when they are read, and the sheet after that, when the rows of
each page are inserted before the next page is read. -/
def copied (sheet : Sheet) (slots : Nat) : Nat → Nat × Sheet
  | 0 => (0, sheet)
  | page + 1 =>
    let before := sheet.copied slots page
    let rows := before.2.pageRows slots page
    (before.1 + rows.length, before.2.insertAll slots rows)

/-- The accepted rows that the first pages have when they are read, when the accepted rows of each page
are inserted before the next page is read. -/
def copies (sheet : Sheet) (accepts : List Field → Bool) (slots : Nat) : Nat → List (List Field)
  | 0 => []
  | page + 1 =>
    let before := sheet.copies accepts slots page
    before ++ ((sheet.insertAll slots before).pageRows slots page).filter accepts

/-- Before each page with a free place at most half of the places have rows, so there are free places
before it for the copies of these rows. -/
def StaysBehind (sheet : Sheet) (slots : Nat) : Prop :=
  ∀ page < sheet.pages, (sheet.pageRows slots page).length < slots →
    2 * ((sheet.first page).rows slots).length ≤ page * slots

instance (sheet : Sheet) (slots : Nat) : Decidable (sheet.StaysBehind slots) :=
  inferInstanceAs (Decidable (∀ page < sheet.pages, _ → _))

variable {sheet sheet' : Sheet} {slots : Nat}

theorem insertAll_cons (sheet : Sheet) (slots : Nat) (row : List Field) (rows : List (List Field)) :
    sheet.insertAll slots (row :: rows) = (sheet.insert slots row).insertAll slots rows := rfl

theorem insertAll_append (sheet : Sheet) (slots : Nat) (rows more : List (List Field)) :
    sheet.insertAll slots (rows ++ more) = (sheet.insertAll slots rows).insertAll slots more :=
  List.foldl_append

theorem rows_first_succ (sheet : Sheet) (slots page : Nat) :
    (sheet.first (page + 1)).rows slots = (sheet.first page).rows slots ++ sheet.pageRows slots page := by
  simp only [rows, places, first, List.range_succ, List.flatMap_append, List.filterMap_append,
    List.flatMap_singleton, List.filterMap_map]
  rfl

theorem length_places (sheet : Sheet) (slots : Nat) :
    (sheet.places slots).length = sheet.pages * slots := by
  simp [places, List.length_flatMap]

theorem length_pageRows_le (sheet : Sheet) (slots page : Nat) :
    (sheet.pageRows slots page).length ≤ slots := by
  have h := List.length_filterMap_le (fun slot => sheet.cells.get? (page, slot)) (List.range slots)
  rwa [List.length_range] at h

theorem length_rows_of_full (h : ∀ place : Place, place.1 < sheet.pages → place.2 < slots →
    sheet.cells.get? place ≠ none) : (sheet.rows slots).length = sheet.pages * slots := by
  rw [← sheet.length_places slots, rows, List.filterMap_length_eq_length]
  intro place hplace
  obtain ⟨hpage, hslot⟩ := mem_places.mp hplace
  exact Option.isSome_iff_ne_none.mpr (h place hpage hslot)

theorem Bounded.pageRows_eq_nil (h : sheet.Bounded slots) {page : Nat} (hpage : sheet.pages ≤ page) :
    sheet.pageRows slots page = [] := by
  rw [pageRows, List.filterMap_eq_nil_iff]
  intro slot _
  apply Classical.not_not.mp
  intro hrow
  exact Nat.not_lt_of_le hpage (h _ hrow).1

theorem Bounded.rows_first (h : sheet.Bounded slots) {bound : Nat} (hbound : sheet.pages ≤ bound) :
    (sheet.first bound).rows slots = sheet.rows slots := by
  induction hbound with
  | refl => rfl
  | step hle ih => rw [rows_first_succ, ih, h.pageRows_eq_nil hle, List.append_nil]

/-- The row was inserted at the place, the first that was free. -/
structure InsertedAt (sheet sheet' : Sheet) (slots : Nat) (row : List Field) (place : Place) : Prop where
  slot : place.2 < slots
  page : place.1 ≤ sheet.pages
  free : sheet.cells.get? place = none
  least : ∀ other : Place, other.1 < sheet.pages → other.2 < slots → other.Earlier place →
    sheet.cells.get? other ≠ none
  pages : sheet'.pages = max sheet.pages (place.1 + 1)
  cells : ∀ other, sheet'.cells.get? other = if other = place then some row else sheet.cells.get? other

theorem insertedAt (hslots : 0 < slots) (hbounded : sheet.Bounded slots) (row : List Field) :
    ∃ place, sheet.InsertedAt (sheet.insert slots row) slots row place := by
  rw [insert]
  cases hfree : sheet.free? slots with
  | some place =>
    obtain ⟨⟨hpage, hslot⟩, hnone, hleast⟩ := (free?_eq_some_iff _ _ _).mp hfree
    exact ⟨place, hslot, Nat.le_of_lt hpage, hnone, hleast, (Nat.max_eq_left hpage).symm,
      fun other => Assoc.get?_insert _ _ _ _⟩
  | none =>
    have hfull := (free?_eq_none_iff _ _).mp hfree
    refine ⟨(sheet.pages, 0), hslots, Nat.le_refl _, ?_, fun other hpage hslot _ => hfull other hpage hslot,
      (Nat.max_eq_right (Nat.le_succ _)).symm, fun other => Assoc.get?_insert _ _ _ _⟩
    apply Classical.not_not.mp
    intro hrow
    exact Nat.lt_irrefl _ (hbounded _ hrow).1

namespace InsertedAt
variable {row : List Field} {place : Place}

theorem bounded (h : sheet.InsertedAt sheet' slots row place) (hbounded : sheet.Bounded slots) :
    sheet'.Bounded slots := by
  intro other hrow
  rw [h.cells] at hrow
  rw [h.pages]
  split at hrow
  · next heq =>
    rw [heq]
    exact ⟨by omega, h.slot⟩
  · obtain ⟨hpage, hslot⟩ := hbounded other hrow
    exact ⟨by omega, hslot⟩

theorem pageRows_of_ne (h : sheet.InsertedAt sheet' slots row place) {page : Nat} (hne : page ≠ place.1) :
    sheet'.pageRows slots page = sheet.pageRows slots page := by
  apply List.filterMap_congr
  intro slot _
  rw [h.cells, if_neg]
  rintro rfl
  exact hne rfl

theorem perm_first (h : sheet.InsertedAt sheet' slots row place) {bound : Nat} (hbound : place.1 < bound) :
    ((sheet'.first bound).rows slots).Perm (row :: (sheet.first bound).rows slots) := by
  have hmem : place ∈ (sheet.first bound).places slots := mem_places.mpr ⟨hbound, h.slot⟩
  apply perm_filterMap_of_set (nodup_places _ _) hmem h.free
  · exact (h.cells place).trans (if_pos rfl)
  · exact fun other hne => (h.cells other).trans (if_neg hne)

theorem length_first_of_lt (h : sheet.InsertedAt sheet' slots row place) {bound : Nat}
    (hbound : place.1 < bound) :
    ((sheet'.first bound).rows slots).length = ((sheet.first bound).rows slots).length + 1 :=
  (h.perm_first hbound).length_eq

theorem perm_rows (h : sheet.InsertedAt sheet' slots row place) (hbounded : sheet.Bounded slots) :
    (sheet'.rows slots).Perm (row :: sheet.rows slots) := by
  have hpage : place.1 < sheet'.pages := by
    rw [h.pages]
    omega
  have hperm := h.perm_first hpage
  rwa [hbounded.rows_first (by rw [h.pages]; omega)] at hperm

theorem place_lt (h : sheet.InsertedAt sheet' slots row place) {bound : Nat} (hbound : bound ≤ sheet.pages)
    (hroom : ((sheet.first bound).rows slots).length < bound * slots) : place.1 < bound := by
  apply Nat.lt_of_not_le
  intro hle
  have hfull : ((sheet.first bound).rows slots).length = bound * slots := by
    apply length_rows_of_full
    intro other hpage hslot
    exact h.least other (Nat.lt_of_lt_of_le hpage hbound) hslot (Or.inl (Nat.lt_of_lt_of_le hpage hle))
  omega

theorem ne_of_full (h : sheet.InsertedAt sheet' slots row place) {page : Nat}
    (hfull : (sheet.pageRows slots page).length = slots) : page ≠ place.1 := by
  rintro rfl
  have hall := hfull.trans (List.length_range (n := slots)).symm
  rw [pageRows, List.filterMap_length_eq_length] at hall
  have htaken := hall place.2 (List.mem_range.mpr h.slot)
  rw [h.free] at htaken
  cases htaken

end InsertedAt

section
variable (hslots : 0 < slots)
include hslots

theorem perm_insertAll (hbounded : sheet.Bounded slots) (rows : List (List Field)) :
    ((sheet.insertAll slots rows).rows slots).Perm (rows ++ sheet.rows slots) := by
  induction rows generalizing sheet with
  | nil => exact .refl _
  | cons row rows ih =>
    obtain ⟨place, hinsert⟩ := insertedAt hslots hbounded row
    calc (((sheet.insert slots row).insertAll slots rows).rows slots)
      _ |>.Perm (rows ++ (sheet.insert slots row).rows slots) := ih (hinsert.bounded hbounded)
      _ |>.Perm (rows ++ row :: sheet.rows slots) := (hinsert.perm_rows hbounded).append_left rows
      _ |>.Perm (row :: rows ++ sheet.rows slots) := List.perm_middle

theorem get?_insertAll_of_some (hbounded : sheet.Bounded slots) (rows : List (List Field)) {place : Place}
    {row : List Field} (hrow : sheet.cells.get? place = some row) :
    (sheet.insertAll slots rows).cells.get? place = some row := by
  induction rows generalizing sheet with
  | nil => exact hrow
  | cons new rows ih =>
    obtain ⟨free, hinsert⟩ := insertedAt hslots hbounded new
    apply ih (hinsert.bounded hbounded)
    rw [hinsert.cells, if_neg, hrow]
    rintro rfl
    cases hrow.symm.trans hinsert.free

theorem bounded_insertAll (hbounded : sheet.Bounded slots) (rows : List (List Field)) :
    (sheet.insertAll slots rows).Bounded slots := by
  induction rows generalizing sheet with
  | nil => exact hbounded
  | cons row rows ih =>
    obtain ⟨place, hinsert⟩ := insertedAt hslots hbounded row
    exact ih (hinsert.bounded hbounded)

theorem pages_le_insertAll (hbounded : sheet.Bounded slots) (rows : List (List Field)) :
    sheet.pages ≤ (sheet.insertAll slots rows).pages := by
  induction rows generalizing sheet with
  | nil => exact Nat.le_refl _
  | cons row rows ih =>
    obtain ⟨place, hinsert⟩ := insertedAt hslots hbounded row
    have hpages := Nat.le_max_left sheet.pages (place.1 + 1)
    rw [← hinsert.pages] at hpages
    exact Nat.le_trans hpages (ih (hinsert.bounded hbounded))

theorem pages_insertAll_le (hbounded : sheet.Bounded slots) (rows : List (List Field)) :
    (sheet.insertAll slots rows).pages ≤ sheet.pages + rows.length := by
  induction rows generalizing sheet with
  | nil => exact Nat.le_refl _
  | cons row rows ih =>
    obtain ⟨place, hinsert⟩ := insertedAt hslots hbounded row
    have hrest := ih (hinsert.bounded hbounded)
    have hpages := hinsert.pages
    have hplace := hinsert.page
    rw [insertAll_cons, List.length_cons]
    omega

theorem sublist_pageRows_insertAll (hbounded : sheet.Bounded slots) (rows : List (List Field)) (page : Nat) :
    (sheet.pageRows slots page).Sublist ((sheet.insertAll slots rows).pageRows slots page) :=
  sublist_filterMap_of_imp (fun _ _ hrow => get?_insertAll_of_some hslots hbounded rows hrow) _

theorem pageRows_insertAll_of_full (hbounded : sheet.Bounded slots) (rows : List (List Field)) {page : Nat}
    (hfull : (sheet.pageRows slots page).length = slots) :
    (sheet.insertAll slots rows).pageRows slots page = sheet.pageRows slots page := by
  induction rows generalizing sheet with
  | nil => rfl
  | cons row rows ih =>
    obtain ⟨place, hinsert⟩ := insertedAt hslots hbounded row
    have hsame := hinsert.pageRows_of_ne (hinsert.ne_of_full hfull)
    rw [insertAll_cons, ih (hinsert.bounded hbounded) (by rwa [hsame]), hsame]

theorem pageRows_insertAll_of_room (hbounded : sheet.Bounded slots) (rows : List (List Field)) {page : Nat}
    (hpage : page ≤ sheet.pages)
    (hroom : ((sheet.first page).rows slots).length + rows.length ≤ page * slots) :
    (sheet.insertAll slots rows).pageRows slots page = sheet.pageRows slots page := by
  induction rows generalizing sheet with
  | nil => rfl
  | cons row rows ih =>
    rw [List.length_cons] at hroom
    obtain ⟨place, hinsert⟩ := insertedAt hslots hbounded row
    have hlt := hinsert.place_lt hpage (by omega)
    have hgrows := hinsert.length_first_of_lt hlt
    have hpages := hinsert.pages
    rw [insertAll_cons, ih (hinsert.bounded hbounded) (by omega) (by omega),
      hinsert.pageRows_of_ne (Nat.ne_of_gt hlt)]

end

section
variable {accepts : List Field → Bool} {page : Nat}

theorem copies_succ (sheet : Sheet) (accepts : List Field → Bool) (slots page : Nat) :
    sheet.copies accepts slots (page + 1) = sheet.copies accepts slots page ++
      ((sheet.insertAll slots (sheet.copies accepts slots page)).pageRows slots page).filter accepts := rfl

theorem accepts_of_mem_copies {row : List Field} (h : row ∈ sheet.copies accepts slots page) :
    accepts row = true := by
  induction page with
  | zero => cases h
  | succ page ih =>
    rw [copies_succ] at h
    rcases List.mem_append.mp h with hbefore | hpage
    · exact ih hbefore
    · exact (List.mem_filter.mp hpage).2

theorem copies_prefix_of_le {start : Nat} (hpage : start ≤ page) :
    sheet.copies accepts slots start <+: sheet.copies accepts slots page := by
  induction hpage with
  | refl => exact List.prefix_rfl
  | step _ ih => exact ih.trans (List.prefix_append _ _)

theorem length_copies_le (sheet : Sheet) (accepts : List Field → Bool) (slots page : Nat) :
    (sheet.copies accepts slots page).length ≤ page * slots := by
  induction page with
  | zero => exact Nat.zero_le _
  | succ page ih =>
    have hpage := (sheet.insertAll slots (sheet.copies accepts slots page)).length_pageRows_le slots page
    have haccepted := List.length_filter_le accepts
      ((sheet.insertAll slots (sheet.copies accepts slots page)).pageRows slots page)
    rw [copies_succ, List.length_append, Nat.succ_mul]
    omega

theorem sublist_copies (hslots : 0 < slots) (hbounded : sheet.Bounded slots)
    (accepts : List Field → Bool) (page : Nat) :
    (((sheet.first page).rows slots).filter accepts).Sublist (sheet.copies accepts slots page) := by
  induction page with
  | zero => exact .slnil
  | succ page ih =>
    rw [rows_first_succ, List.filter_append, copies_succ]
    exact ih.append ((sublist_pageRows_insertAll hslots hbounded _ page).filter accepts)

theorem copied_eq (sheet : Sheet) (slots page : Nat) :
    sheet.copied slots page = ((sheet.copies (fun _ => true) slots page).length,
      sheet.insertAll slots (sheet.copies (fun _ => true) slots page)) := by
  induction page with
  | zero => rfl
  | succ page ih => rw [copied, ih, copies_succ, List.filter_true, List.length_append, insertAll_append]

end

theorem copied_fst_mono (sheet : Sheet) (slots : Nat) {start page : Nat} (hpage : start ≤ page) :
    (sheet.copied slots start).1 ≤ (sheet.copied slots page).1 := by
  rw [copied_eq, copied_eq]
  exact (copies_prefix_of_le hpage).length_le

theorem length_rows_first_le_copied (hslots : 0 < slots) (hbounded : sheet.Bounded slots) (page : Nat) :
    ((sheet.first page).rows slots).length ≤ (sheet.copied slots page).1 := by
  have hall := (sublist_copies hslots hbounded (fun _ => true) page).length_le
  rw [List.filter_true] at hall
  rwa [copied_eq]

theorem StaysBehind.copied_eq (h : sheet.StaysBehind slots) (hslots : 0 < slots)
    (hbounded : sheet.Bounded slots) {page : Nat} (hpage : page ≤ sheet.pages) :
    sheet.copied slots page = (((sheet.first page).rows slots).length,
      sheet.insertAll slots ((sheet.first page).rows slots)) := by
  induction page with
  | zero => rfl
  | succ page ih =>
    have hsame : (sheet.insertAll slots ((sheet.first page).rows slots)).pageRows slots page =
        sheet.pageRows slots page := by
      rcases Nat.lt_or_eq_of_le (sheet.length_pageRows_le slots page) with hfree | hfull
      · have hroom := h page hpage hfree
        exact pageRows_insertAll_of_room hslots hbounded _ (Nat.le_of_succ_le hpage) (by omega)
      · exact pageRows_insertAll_of_full hslots hbounded _ hfull
    rw [copied, ih (Nat.le_of_succ_le hpage)]
    dsimp only
    rw [hsame, rows_first_succ, List.length_append, insertAll_append]

end Sheet
end RowStore
