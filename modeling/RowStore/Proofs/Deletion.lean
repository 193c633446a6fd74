import Mathlib.Data.List.Nodup
import RowStore.Proofs.Changes
import RowStore.Proofs.PlanResults

/-!
# Deletes of filtered scans

A delete over filters of a scan changes the pages that the scan reads. The scan has left the page of
each tuple when the tuple is deleted, so it still delivers the rows that the table had when the
operator was opened. The main statement says that exactly the accepted rows are removed, once, and that
their number is answered to all demands.
-/
namespace RowStore
open Relation Database

/-- The place that the record names. -/
def RecordId.place (record : RecordId) : Place := (record.page.number.toNat, record.slot.toNat)

/-- The place where the tuple is stored. -/
def Tuple.place? (t : Tuple) : Option Place := t.record.map RecordId.place

namespace Sheet

/-- The sheet without the rows at these places. -/
def without (sheet : Sheet) (places : List Place) : Sheet := places.foldl Sheet.delete sheet

theorem get?_without (sheet : Sheet) (places : List Place) (place : Place) :
    (sheet.without places).cells.get? place =
      if place ∈ places then none else sheet.cells.get? place := by
  induction places generalizing sheet with
  | nil => rfl
  | cons first places ih =>
    have hfirst : (sheet.delete first).cells.get? place =
        if place = first then none else sheet.cells.get? place := Assoc.get?_erase _ _ _
    rw [without, List.foldl_cons]
    change ((sheet.delete first).without places).cells.get? place = _
    rw [ih, hfirst]
    by_cases hmem : place ∈ places <;> by_cases heq : place = first <;> simp [hmem, heq]

theorem without_append (sheet : Sheet) (places more : List Place) :
    sheet.without (places ++ more) = (sheet.without places).without more :=
  List.foldl_append

theorem place_record (table : TableId) {place : Place} (hpage : place.1 < UInt32.size)
    (hslot : place.2 < UInt16.size) : (record table place).place = place := by
  rw [RecordId.place, record, UInt32.toNat_ofNat_of_lt' hpage, UInt16.toNat_ofNat_of_lt' hslot]

variable {sheet : Sheet} {file : TableFile} {schema : Schema}

theorem tuple?_eq_some {place : Place} (hpages : sheet.pages ≤ UInt32.size)
    (hplace : place ∈ sheet.places file.slotCount) {t : Tuple}
    (h : sheet.tuple? file.id schema place = some t) :
    ∃ record, t.record = some record ∧ record.page.table = file.id ∧ record.place = place ∧
      sheet.cells.get? place = some t.fields := by
  obtain ⟨hpage, hslot⟩ := mem_places.mp hplace
  obtain ⟨row, hrow, rfl⟩ := Option.map_eq_some_iff.mp h
  have hrecord := place_record file.id (Nat.lt_of_lt_of_le hpage hpages)
    (Nat.lt_of_lt_of_le hslot file.slotCount_le)
  exact ⟨_, rfl, rfl, hrecord, hrow⟩

theorem mem_tuples (hpages : sheet.pages ≤ UInt32.size) {t : Tuple}
    (ht : t ∈ sheet.tuples file schema) : ∃ record, t.record = some record ∧
      record.page.table = file.id ∧ sheet.cells.get? record.place = some t.fields := by
  obtain ⟨place, hplace, h⟩ := List.mem_filterMap.mp ht
  obtain ⟨record, hrecord, htable, rfl, hrow⟩ := tuple?_eq_some hpages hplace h
  exact ⟨record, hrecord, htable, hrow⟩

theorem places_tuples (hpages : sheet.pages ≤ UInt32.size) :
    (sheet.tuples file schema).filterMap Tuple.place? =
      (sheet.places file.slotCount).filter sheet.cells.contains := by
  rw [tuples, List.filterMap_filterMap, ← List.filterMap_eq_filter]
  apply List.filterMap_congr
  intro place hplace
  cases htuple : sheet.tuple? file.id schema place with
  | none =>
    have hempty : sheet.cells.get? place = none := Option.map_eq_none_iff.mp htuple
    simp [Option.guard, Assoc.contains, hempty]
  | some t =>
    obtain ⟨record, hrecord, _, hplaced, hrow⟩ := tuple?_eq_some hpages hplace htuple
    simp [Option.guard, Assoc.contains, hrow, Tuple.place?, hrecord, hplaced]

end Sheet

namespace Predicate

theorem select_eq_filter {predicate : Predicate} {ts : List Tuple}
    (h : ∀ t ∈ ts, predicate.field < t.fields.length) :
    predicate.select ts = .ok (ts.filter fun t => decide (predicate.holds t = .ok true)) := by
  induction ts with
  | nil => rfl
  | cons t ts ih =>
    rw [select, ih fun other hmem => h other (List.mem_cons_of_mem _ hmem), List.filter_cons]
    cases hholds : predicate.holds t with
    | error e =>
      have hmissing := (predicate.holds_eq_error_iff t).mp ⟨e, hholds⟩
      exact absurd (h t List.mem_cons_self) (Nat.not_lt_of_le hmissing)
    | ok accepted => cases accepted <;> rfl

end Predicate

namespace Plan

/-- The plan passes the scan of the file through filters of its columns. -/
def FilteredScan (file : TableFile) : Plan → Prop
  | .scan other _ => other = file
  | .filter predicate child => predicate.field < file.schema.fieldCount ∧ child.FilteredScan file
  | .rows _ _ | .aggregate _ _ | .insert _ _ _ | .delete _ _ => False

/-- The tuple satisfies the predicates of the filters. -/
def accepts : Plan → Tuple → Bool
  | .filter predicate child, t => decide (predicate.holds t = .ok true) && child.accepts t
  | .rows _ _, _ | .scan _ _, _ | .aggregate _ _, _ | .insert _ _ _, _ | .delete _ _, _ => true

variable {file : TableFile} {plan : Plan}

theorem FilteredScan.chain {catalog : Catalog} (h : plan.FilteredScan file)
    (hfile : catalog.file file.id = .ok file) : plan.Chain catalog := by
  induction plan with
  | scan other qualifier =>
    cases h
    exact hfile
  | filter predicate child ih => exact ih h.2
  | rows _ _ | aggregate _ _ _ | insert _ _ _ _ | delete _ _ _ => exact h.elim

theorem FilteredScan.countable (h : plan.FilteredScan file) (sheets : Sheets) :
    plan.Countable sheets := by
  induction plan with
  | scan _ _ => trivial
  | filter predicate child ih => exact ih h.2
  | rows _ _ | aggregate _ _ _ | insert _ _ _ _ | delete _ _ _ => exact h.elim

theorem FilteredScan.result_eq (h : plan.FilteredScan file) {sheets : Sheets}
    (hrows : ∀ schema, ∀ t ∈ (sheets file.id).tuples file schema, t.fields.length = file.schema.fieldCount) :
    plan.result sheets = .ok (((sheets file.id).tuples file plan.schema).filter plan.accepts) := by
  induction plan with
  | scan other qualifier =>
    cases h
    have hall : ((sheets file.id).tuples file (file.schema.qualify qualifier)).filter
        (Plan.scan file qualifier).accepts = (sheets file.id).tuples file (file.schema.qualify qualifier) :=
      List.filter_eq_self.mpr fun _ _ => rfl
    exact congrArg Except.ok hall.symm
  | filter predicate child ih =>
    rw [result_filter_eq_ok]
    refine ⟨_, ih h.2, ?_⟩
    rw [Predicate.select_eq_filter, List.filter_filter]
    · rfl
    · intro t ht
      rw [hrows _ t (List.mem_filter.mp ht).1]
      exact h.1
  | rows _ _ | aggregate _ _ _ | insert _ _ _ _ | delete _ _ _ => exact h.elim

end Plan

namespace Database

theorem Shows.rowsAt_eq {db db' : Database} {file : TableFile} {sheet sheet' : Sheet}
    (h : Shows db file sheet) (h' : Shows db' file sheet') {n : PageNo} (hn : n.toNat < sheet.pages)
    (hn' : n.toNat < sheet'.pages) (hlength : (db.rowsAt file n).length = (db'.rowsAt file n).length)
    (hcells : ∀ slot, sheet'.cells.get? (n.toNat, slot) = sheet.cells.get? (n.toNat, slot)) :
    db'.rowsAt file n = db.rowsAt file n := by
  apply List.ext_getElem?
  intro slot
  have hcell := hcells slot
  rw [h.cells, h'.cells, if_pos hn, if_pos hn', UInt32.ofNat_toNat] at hcell
  by_cases hslot : slot < (db.rowsAt file n).length
  · have hslot' : slot < (db'.rowsAt file n).length := hlength ▸ hslot
    rw [List.getElem?_eq_getElem hslot, List.getElem?_eq_getElem hslot', Option.join_some,
      Option.join_some] at hcell
    rw [List.getElem?_eq_getElem hslot, List.getElem?_eq_getElem hslot', hcell]
  · rw [List.getElem?_eq_none (Nat.le_of_not_lt hslot),
      List.getElem?_eq_none (hlength ▸ Nat.le_of_not_lt hslot)]

theorem keeps_of_matches {base db : Database} {sheets sheets' : Sheets} (hcoherent : base.Coherent)
    (hsmall : base.Small) (hm : Matches base sheets) (hready : db.Ready) (htables : SameTables base db)
    (hm' : Matches db sheets') {reads : PageId → Prop}
    (hpages : ∀ table, (sheets' table).pages = (sheets table).pages)
    (hcells : ∀ id, reads id → ∀ slot, (sheets' id.table).cells.get? (id.number.toNat, slot) =
      (sheets id.table).cells.get? (id.number.toNat, slot)) : base.Keeps reads db := by
  have htotal (file : TableFile) (hfile : base.catalog.file file.id = .ok file) :
      file.pageTotal db.volume = file.pageTotal base.volume := by
    rw [← (hm file hfile).pages, ← (hm' file (by rwa [htables.catalog])).pages, hpages]
  constructor
  case ready => exact hready
  case small =>
    apply hsmall.of_pageTotal htables.catalog
    exact fun table file hfile => htotal file (hcoherent.registered hfile)
  case tables => exact htables
  case pages => exact htotal
  case rows =>
    intro file hfile n hn hcounted
    have hfile' : db.catalog.file file.id = .ok file := by rwa [htables.catalog]
    rw [← (hm file hfile).pages] at hcounted
    apply (hm file hfile).rowsAt_eq (hm' file hfile') hcounted (by rwa [hpages])
    · rw [hcoherent.length_rowsAt hfile, hready.coherent.length_rowsAt hfile']
    · exact hcells ⟨file.id, n⟩ hn

theorem Keeps.trans {a b c : Database} {reads : PageId → Prop} (hab : a.Keeps reads b)
    (hbc : b.Keeps reads c) : a.Keeps reads c := by
  constructor
  case ready => exact hbc.ready
  case small => exact hbc.small
  case tables => exact hab.tables.trans hbc.tables
  case pages =>
    intro file hfile
    rw [hbc.pages file (by rwa [hab.tables.catalog]), hab.pages file hfile]
  case rows =>
    intro file hfile n hn hcounted
    have hfile' : b.catalog.file file.id = .ok file := by rwa [hab.tables.catalog]
    rw [hbc.rows file hfile' n hn (by rwa [hab.pages file hfile]), hab.rows file hfile n hn hcounted]

theorem Ready.holds_cell {db : Database} (h : db.Ready) (hsmall : db.Small) {file : TableFile} {sheet : Sheet}
    (hshows : Shows db file sheet) (hfile : db.catalog.file file.id = .ok file) {place : Place}
    {row : List Field} (hrow : sheet.cells.get? place = some row) : file.Holds row := by
  have hcells := hshows.cells place.1 place.2
  rw [hrow] at hcells
  split at hcells
  · next hpage =>
    rw [hshows.pages] at hpage
    have hn : (UInt32.ofNat place.1).toNat = place.1 :=
      UInt32.toNat_ofNat_of_lt' (Nat.lt_trans hpage (hsmall _ _ hfile))
    apply h.holds file hfile _ (hn.symm ▸ hpage)
    exact List.mem_of_getElem? (Option.join_eq_some_iff.mp hcells.symm)
  · cases hcells

theorem Keeps.delete_ok {base db : Database} {reads : PageId → Prop} (h : base.Keeps reads db)
    {sheets : Sheets} (hm : Matches db sheets) (txn : TransactionId) {t : Tuple} (hapart : t.Apart reads)
    {record : RecordId} {file : TableFile} (hrecord : t.record = some record)
    (hfile : base.catalog.file record.page.table = .ok file) {row : List Field}
    (hrow : (sheets record.page.table).cells.get? record.place = some row) :
    ∃ db', deleteTuple txn t db = .ok () db' ∧ base.Keeps reads db' ∧
      Matches db' (sheets.put record.page.table ((sheets record.page.table).delete record.place)) := by
  have hcatalog : db.catalog.file record.page.table = .ok file := by rwa [h.tables.catalog]
  have hsheets := onSheets_delete_of_row txn hrecord hcatalog hrow
  have hsimulated := h.ready.simulated_delete h.small hm txn t
  obtain ⟨db', hok⟩ := hsimulated.succeeds.mpr (by rw [hsheets]; rfl)
  obtain ⟨hready, htables, hshown, -⟩ := hsimulated
  have hleaves : (Call.delete txn t).leaves db = db' := after_of_ok hok
  rw [hsheets, hleaves] at hshown
  rw [hleaves] at hready htables
  refine ⟨db', hok, h.trans ?_, hshown⟩
  apply keeps_of_matches h.ready.coherent h.small hm hready htables hshown
  · intro table
    simp only [Option.getD_some, Sheets.put]
    split
    · next heq =>
      rw [heq]
      rfl
    · rfl
  · intro id hid slot
    have hpage : record.page ≠ id := fun heq => hapart record hrecord (heq ▸ hid)
    simp only [Option.getD_some, Sheets.put]
    split
    · next heq =>
      rw [Sheet.delete, Assoc.get?_erase, if_neg, heq]
      intro hplace
      have hnumber : id.number = record.page.number := UInt32.toNat_inj.mp (congrArg Prod.fst hplace)
      exact hpage (congrArg₂ PageId.mk heq hnumber).symm
    · rfl

end Database

/-- The tuples are rows of the table, stored at different places. -/
structure StoredIn (sheet : Sheet) (table : TableId) (ts : List Tuple) : Prop where
  stored : ∀ t ∈ ts, ∃ record, t.record = some record ∧ record.page.table = table ∧
    sheet.cells.get? record.place = some t.fields
  nodup : (ts.filterMap Tuple.place?).Nodup

theorem Sheet.storedIn_filter {sheet : Sheet} {file : TableFile} {schema : Schema}
    (hpages : sheet.pages ≤ UInt32.size) (accepts : Tuple → Bool) :
    StoredIn sheet file.id ((sheet.tuples file schema).filter accepts) := by
  constructor
  case stored => exact fun t ht => mem_tuples hpages (List.mem_filter.mp ht).1
  case nodup =>
    apply (List.Sublist.filterMap Tuple.place? List.filter_sublist).nodup
    rw [places_tuples hpages]
    exact (nodup_places _ _).filter _

namespace StoredIn
variable {sheet : Sheet} {table : TableId} {ts : List Tuple}

theorem placed (h : StoredIn sheet table ts) {t : Tuple} (ht : t ∈ ts) :
    ∃ place, t.place? = some place ∧ sheet.cells.contains place = true := by
  obtain ⟨record, hrecord, _, hrow⟩ := h.stored t ht
  refine ⟨record.place, ?_, ?_⟩
  · rw [Tuple.place?, hrecord, Option.map_some]
  · rw [Assoc.contains, hrow, Option.isSome_some]

theorem length_places (h : StoredIn sheet table ts) : (ts.filterMap Tuple.place?).length = ts.length := by
  rw [List.filterMap_length_eq_length]
  intro t ht
  obtain ⟨place, hplace, _⟩ := h.placed ht
  rw [hplace, Option.isSome_some]

theorem contains_place (h : StoredIn sheet table ts) {place : Place}
    (hmem : place ∈ ts.filterMap Tuple.place?) : sheet.cells.contains place = true := by
  obtain ⟨t, ht, hplace⟩ := List.mem_filterMap.mp hmem
  obtain ⟨other, hother, hcell⟩ := h.placed ht
  cases hplace.symm.trans hother
  exact hcell

end StoredIn

/-- All but the rest of the tuples are deleted and counted, and nothing else has changed. -/
def DeletedUpTo (sheets : Sheets) (table : TableId) (ts rest : List Tuple) (n : Nat) (db : Database) :
    Prop :=
  ∃ deleted, ts = deleted ++ rest ∧ n = deleted.length ∧
    Matches db (sheets.put table ((sheets table).without (deleted.filterMap Tuple.place?)))

section
variable {sheets : Sheets} {file : TableFile} {ts rest : List Tuple} {n : Nat} {db : Database}

theorem deletedUpTo_zero (hm : Matches db sheets) : DeletedUpTo sheets file.id ts ts 0 db := by
  refine ⟨[], rfl, rfl, ?_⟩
  rwa [List.filterMap_nil, Sheet.without, List.foldl_nil, Sheets.put_eq_self]

theorem DeletedUpTo.paging {db' : Database} (h : DeletedUpTo sheets file.id ts rest n db)
    (hready : db.Ready) (hpages : ReflTransGen Paging db db') :
    DeletedUpTo sheets file.id ts rest n db' := by
  obtain ⟨deleted, hall, hn, hm⟩ := h
  exact ⟨deleted, hall, hn, hm.of_sameRows (hready.pages hpages).2⟩

theorem DeletedUpTo.step {base : Database} {reads : PageId → Prop} {t : Tuple}
    (h : DeletedUpTo sheets file.id ts (t :: rest) n db) (hkeeps : base.Keeps reads db)
    (hfile : base.catalog.file file.id = .ok file) (hstored : StoredIn (sheets file.id) file.id ts)
    (hcount : ts.length ≤ 2147483647) (hapart : t.Apart reads) (txn : TransactionId) :
    ∃ n' db', Source.countStep (deleteTuple txn) t (n, db) = .ok () (n', db') ∧
      base.Keeps reads db' ∧ DeletedUpTo sheets file.id ts rest n' db' := by
  obtain ⟨deleted, hall, rfl, hm⟩ := h
  have hlength := congrArg List.length hall
  rw [List.length_append, List.length_cons] at hlength
  obtain ⟨record, hrecord, htable, hrow⟩ := hstored.stored t (by rw [hall]; simp)
  have hplace : t.place? = some record.place := by rw [Tuple.place?, hrecord, Option.map_some]
  have hnew : record.place ∉ deleted.filterMap Tuple.place? := by
    have hnodup := hstored.nodup
    rw [hall, List.filterMap_append, List.filterMap_cons_some hplace, List.nodup_append] at hnodup
    exact fun hmem => hnodup.2.2 _ hmem _ List.mem_cons_self rfl
  have hcell := Sheet.get?_without (sheets file.id) (deleted.filterMap Tuple.place?) record.place
  rw [if_neg hnew, hrow] at hcell
  rw [← htable] at hfile hm hcell
  obtain ⟨db', hdelete, hkeeps', hm'⟩ :=
    hkeeps.delete_ok hm txn hapart hrecord hfile (by rw [Sheets.put_self]; exact hcell)
  rw [Sheets.put_self, Sheets.put_put, htable] at hm'
  refine ⟨deleted.length + 1, db', ?_, hkeeps', deleted ++ [t], ?_, ?_, ?_⟩
  · simp only [Source.countStep, hdelete, if_pos (by omega : deleted.length + 1 ≤ 2147483647)]
  · rw [hall, List.append_assoc, List.singleton_append]
  · rw [List.length_append, List.length_singleton]
  · rw [List.filterMap_append, List.filterMap_cons_some hplace, Sheet.without_append]
    exact hm'

theorem Enumeration.delete_all {σ : Type} {source : Source σ} {init : σ} {base : Database}
    (e : Enumeration source init base ts) (hfile : base.catalog.file file.id = .ok file)
    (hstored : StoredIn (sheets file.id) file.id ts) (hcount : ts.length ≤ 2147483647)
    (txn : TransactionId) {s : σ} (hs : e.ahead s ts) (hkeeps : base.Keeps (e.reads s) db)
    (hm : Matches db sheets) :
    ∃ look db', source.forEach (Source.countStep (deleteTuple txn)) ((.opened s, 0), db) =
        .ok () ((look, ts.length), db') ∧ db'.Ready ∧ db'.Small ∧
      Matches db' (sheets.put file.id ((sheets file.id).without (ts.filterMap Tuple.place?))) := by
  obtain ⟨s', n, db', hloop, hkept, deleted, hall, rfl, hm'⟩ :=
    e.forEach_ok (Source.countStep (deleteTuple txn)) (DeletedUpTo sheets file.id ts)
      (fun hready hup hpages => hup.paging hready hpages)
      (fun hkept hapart hup => hup.step hkept hfile hstored hcount hapart txn) hs hkeeps
      (deletedUpTo_zero hm)
  rw [List.append_nil] at hall
  subst hall
  exact ⟨.opened s', db', hloop, hkept.ready, hkept.small, hm'⟩

end

namespace Database

theorem Shows.pages_le {db : Database} {file : TableFile} {sheet : Sheet} (h : Shows db file sheet)
    (hsmall : db.Small) (hfile : db.catalog.file file.id = .ok file) : sheet.pages ≤ UInt32.size := by
  rw [h.pages]
  exact Nat.le_of_lt (hsmall _ _ hfile)

theorem Ready.delete_scan {db : Database} (h : db.Ready) (hsmall : db.Small) {sheets : Sheets}
    (hm : Matches db sheets) {file : TableFile} (hfile : db.catalog.file file.id = .ok file) {plan : Plan}
    (hplan : plan.FilteredScan file) (txn : TransactionId) {ts : List Tuple}
    (hts : ts = ((sheets file.id).tuples file plan.schema).filter plan.accepts)
    (hcount : ts.length ≤ 2147483647) :
    (Plan.delete txn plan).Changes db sheets
      (sheets.put file.id ((sheets file.id).without (ts.filterMap Tuple.place?))) ts.length := by
  have hshows := hm file hfile
  have hpages := hshows.pages_le hsmall hfile
  have hresult : plan.result sheets = .ok ts := by
    rw [hts]
    apply hplan.result_eq
    intro schema t ht
    obtain ⟨record, _, _, hrow⟩ := Sheet.mem_tuples hpages ht
    rw [(h.holds_cell hsmall hshows hfile hrow).1, Schema.length_types]
  obtain ⟨e⟩ := Plan.enumerated h hsmall hm (hplan.chain hfile) (hplan.countable sheets) hresult
  have hkeeps := Keeps.refl h hsmall fun _ => True
  obtain ⟨s, opened, hopen, hpaging, hs⟩ := e.open_ok hkeeps
  have hkept := hkeeps.paging hpaging
  have hm' := hm.of_sameRows (h.pages hpaging).2
  obtain ⟨look, changed, hloop, hready, hsmall', hshown⟩ := e.delete_all hfile
    (hts ▸ Sheet.storedIn_filter hpages plan.accepts) hcount txn hs (hkept.mono fun _ _ => trivial) hm'
  exact Plan.changes_of_respondAll (Source.open_change hopen)
    (fun demands => Source.respondAll_change hloop demands) (hkept.ready.looksLike hkept.small hm')
    (hready.looksLike hsmall' hshown)

/-- A delete over filters of a scan removes exactly the accepted tuples of the table, when a row is
first asked for, and answers their number to all demands. The pages can be written, as all rows fit. -/
theorem delete_filteredScan {db : Database} (h : db.Regular) (hroom : 0 < db.pool.capacity)
    (hsmall : db.Small) (hfits : db.RowsFit) {file : TableFile}
    (hfile : db.catalog.file file.id = .ok file) {plan : Plan} (hplan : plan.FilteredScan file)
    (txn : TransactionId) :
    let sheet := db.sheets file.id
    let ts := (sheet.tuples file plan.schema).filter plan.accepts
    let places := ts.filterMap Tuple.place?
    (places.Nodup ∧ places.length = ts.length ∧ ∀ place ∈ places, sheet.cells.contains place = true) ∧
      (ts.length ≤ 2147483647 → ∀ demands : List Demand, ∃ opened last,
        Operator.open (.ofPlan (.delete txn plan), db) = .ok () opened ∧ LooksLike opened.2 db.sheets ∧
          Operator.respondAll demands opened =
            .ok (Demand.expected [Source.countRow ts.length] 0 demands) last ∧
          LooksLike last.2 (if demands.any Demand.pulls then
            db.sheets.put file.id (sheet.without places) else db.sheets)) := by
  intro sheet ts places
  have hshown := h.coherent.shows_sheets
  have hstored : StoredIn sheet file.id ts :=
    Sheet.storedIn_filter ((hshown file hfile).pages_le hsmall hfile) plan.accepts
  exact ⟨⟨hstored.nodup, hstored.length_places, fun place hmem => hstored.contains_place hmem⟩,
    fun hcount => (h.ready hroom hfits).delete_scan hsmall hshown hfile hplan txn rfl hcount⟩

/-- With one frame and pages of two slots, three of five rows are deleted from three pages. -/
theorem delete_filteredScan_three :
    let schema : Schema := ⟨[{ type := .integer, name := some "a" }], List.cons_ne_nil _ _⟩
    let file : TableFile := ⟨0, ⟨"t", 9⟩, schema, by decide, by decide⟩
    let start := withTable { pageSize := 9, poolPages := 1 } "t" schema
    let insert (value : Int32) : Call := .insert ⟨1⟩ (.file "t") ⟨schema, [.int value], none⟩
    let calls : List Call := [insert 1, insert 2, insert 3, insert 4, insert 5]
    let plan : Plan := .filter ⟨0, .gt, .int 1⟩ (.filter ⟨0, .lt, .int 5⟩ (.scan file "x"))
    let db := run calls start
    let ts := ((db.sheets file.id).tuples file plan.schema).filter plan.accepts
    let places := ts.filterMap Tuple.place?
    let count : Tuple := ⟨Source.countSchema, [.int 3], none⟩
    db.Regular ∧ 0 < db.pool.capacity ∧ db.Small ∧ db.RowsFit ∧ db.catalog.file file.id = .ok file ∧
      plan.FilteredScan file ∧ places = [(0, 1), (1, 0), (1, 1)] ∧ ts.length ≤ 2147483647 ∧
      (db.sheets file.id).without places = ⟨3, ⟨[((0, 0), [.int 1]), ((2, 0), [.int 5])]⟩⟩ ∧
      ∃ opened last, Operator.open (.ofPlan (.delete ⟨2⟩ plan), db) = .ok () opened ∧
        LooksLike opened.2 db.sheets ∧
        Operator.respondAll [.rewind, .hasNext, .next, .next, .rewind, .next] opened =
          .ok [.done, .more true, .row (some count), .row none, .done, .row (some count)] last ∧
        LooksLike last.2 (db.sheets.put file.id ((db.sheets file.id).without places)) := by
  intro schema file start insert calls plan db ts places count
  have hcalls : ∀ call ∈ calls, call.Plain := by
    have hvalid (value : Int32) : (⟨schema, [.int value], none⟩ : Tuple).Valid := by
      simp [Tuple.Valid, schema, Schema.types, Field.fits]
    simp [calls, insert, Call.Plain, hvalid]
  have hsmall : StaysSmall calls start := by decide +kernel
  have hdb : run calls start = db := rfl
  obtain ⟨hregular, hroom, hpages, hfits, -⟩ := regular_withTable (by decide) "t" schema hcalls hsmall hdb
  have hfile : db.catalog.file file.id = .ok file := by decide +kernel
  have hplan : plan.FilteredScan file := ⟨by decide, by decide, rfl⟩
  have hplaces : places = [(0, 1), (1, 0), (1, 1)] := by decide +kernel
  have hlength : ts.length = 3 := by decide +kernel
  have hcount : ts.length ≤ 2147483647 := by omega
  obtain ⟨opened, last, hopen, hopened, hrespond, hlast⟩ :=
    (delete_filteredScan hregular hroom hpages hfits hfile hplan ⟨2⟩).2 hcount
      [.rewind, .hasNext, .next, .next, .rewind, .next]
  refine ⟨hregular, hroom, hpages, hfits, hfile, hplan, hplaces, hcount, by decide +kernel,
    opened, last, hopen, hopened, ?_, hlast⟩
  rw [hrespond, hlength]
  rfl

/-- A page of another table that cannot be written is in the only frame. The delete opens, and when a row is
asked for it cannot read its table. -/
theorem delete_fails_behind_wide_text :
    let schema : Schema := ⟨[{ type := .integer, name := some "a" }], List.cons_ne_nil _ _⟩
    let file : TableFile := ⟨1, ⟨"t.dat", 11⟩, schema, by decide, by decide⟩
    let plan : Plan := .delete ⟨2⟩ (.scan file "t")
    behindWideText.catalog.file file.id = .ok file ∧
      behindWideText.sheets file.id = ⟨1, ⟨[((0, 0), [.int 7])]⟩⟩ ∧
      outcome (Operator.open (.ofPlan plan, behindWideText)) = .ok () ∧
      outcome ((Operator.open >>= fun _ => Operator.next) (.ofPlan plan, behindWideText)) =
        .error (.error (.typeMismatch 0 "CHAR(1)" "CHAR(3)")) := by
  intro schema file plan
  exact ⟨by decide +kernel, by decide +kernel, by decide +kernel, by decide +kernel⟩

end Database
end RowStore
