import Mathlib.Algebra.Order.BigOperators.Group.List
import Mathlib.Algebra.Order.Floor.Div
import Mathlib.Control.Monad.Basic
import RowStore.Proofs.Durability
import RowStore.Proofs.Transparency

/-!
# The pages that a table needs

A page is appended only when all pages of its table are full, so whatever a run inserts and deletes,
the file has exactly the pages that are needed for the most tuples that it has had at the same time.
-/
namespace RowStore
open Relation

theorem Page.length_tuples (page : Page) : page.tuples.length = page.rows.countP Option.isSome := by
  rw [tuples, List.length_filterMap_eq_countP, rows, List.countP_map]
  congr 1
  funext slot
  rw [Function.comp_apply, Option.isSome_map]

namespace Database

/-- The number of rows on the pages of the file. -/
def rowTotal (db : Database) (file : TableFile) : Nat :=
  ((List.range (file.pageTotal db.volume)).map fun page =>
    (db.rowsAt file (UInt32.ofNat page)).countP Option.isSome).sum

theorem Coherent.length_tuplesOf {db : Database} (h : db.Coherent) {file : TableFile}
    (hfile : db.catalog.file file.id = .ok file) (hsmall : file.pageTotal db.volume < UInt32.size) :
    (db.tuplesOf file).length = db.rowTotal file := by
  rw [tuplesOf, pageNumbers, TableFile.numPages_toNat hsmall, List.length_flatMap, List.map_map, rowTotal]
  congr 1
  apply List.map_congr_left
  intro number hnumber
  have hcounted : (UInt32.ofNat number).toNat < file.pageTotal db.volume := by
    have hlt := List.mem_range.mp hnumber
    rwa [UInt32.toNat_ofNat_of_lt' (Nat.lt_trans hlt hsmall)]
  obtain ⟨page, hpage, _, _, hrows⟩ := h.page?_eq_some hfile hsmall hcounted
  rw [Function.comp_apply, hpage, Option.map_some, Option.getD_some, Page.length_tuples, hrows]

theorem Coherent.rowTotal_le {db : Database} (h : db.Coherent) {file : TableFile}
    (hfile : db.catalog.file file.id = .ok file) :
    db.rowTotal file ≤ file.slotCount * file.pageTotal db.volume := by
  have hbound := List.sum_le_card_nsmul ((List.range (file.pageTotal db.volume)).map fun page =>
    (db.rowsAt file (UInt32.ofNat page)).countP Option.isSome) file.slotCount ?_
  · rwa [List.length_map, List.length_range, smul_eq_mul, Nat.mul_comm] at hbound
  · intro count hcount
    obtain ⟨page, _, rfl⟩ := List.mem_map.mp hcount
    rw [← h.length_rowsAt hfile (UInt32.ofNat page)]
    exact List.countP_le_length

theorem countP_of_full {rows : List (Option (List Field))}
    (h : rows.findIdx? Option.isNone = none) : rows.countP Option.isSome = rows.length := by
  rw [List.countP_eq_length]
  intro row hrow
  have hnone := List.findIdx?_eq_none_iff.mp h row hrow
  rwa [Option.isNone_eq_false_iff] at hnone

theorem countP_of_first {slots : Nat} (h : 0 < slots) (row : List Field) :
    ((List.replicate slots (none : Option (List Field))).set 0 (some row)).countP Option.isSome = 1 := by
  cases slots with
  | zero => exact absurd h (Nat.lt_irrefl 0)
  | succ slots => simp [List.replicate_succ, List.countP_replicate]

theorem Inserted.pages_cases {db db' : Database} {file : TableFile} {row : List Field}
    (hinserted : Inserted db db' file 0 row) (h : db.Coherent)
    (hfile : db.catalog.file file.id = .ok file) :
    file.pageTotal db'.volume = file.pageTotal db.volume ∨
      file.pageTotal db.volume + 1 < UInt32.size ∧
        file.pageTotal db'.volume = file.pageTotal db.volume + 1 ∧
        db'.rowTotal file = file.slotCount * file.pageTotal db.volume + 1 := by
  cases hinserted with
  | free n slot _ _ _ _ hset => exact Or.inl (hset.pages file hfile)
  | behind n hlast hnumbered hfull _ hpages hrows =>
    have htotal := hpages file hfile
    rw [if_pos rfl] at htotal
    refine Or.inr ⟨by rwa [← hlast], htotal, ?_⟩
    have hbefore (page : Nat) (hpage : page ∈ List.range (file.pageTotal db.volume)) :
        (db'.rowsAt file (UInt32.ofNat page)).countP Option.isSome = file.slotCount := by
      have hlt := List.mem_range.mp hpage
      have hnumber : (UInt32.ofNat page).toNat = page := UInt32.toNat_ofNat_of_lt' (by omega)
      rw [hrows file hfile, if_neg, countP_of_full, h.length_rowsAt hfile]
      · apply hfull _ (Nat.zero_le _)
        rwa [hnumber, hlast]
      · intro heq
        have hsame := congrArg (fun id : PageId => id.number.toNat) heq
        dsimp only at hsame
        omega
    have hnew : (db'.rowsAt file (UInt32.ofNat (file.pageTotal db.volume))).countP Option.isSome = 1 := by
      rw [hrows file hfile, ← hlast, UInt32.ofNat_toNat, if_pos rfl]
      exact countP_of_first file.slotCount_pos row
    rw [rowTotal, htotal, List.range_succ, List.map_append, List.sum_append, List.map_congr_left hbefore,
      List.map_const', List.sum_replicate, List.length_range, List.map_singleton, List.sum_singleton, hnew,
      smul_eq_mul, Nat.mul_comm]

theorem Coherent.pageTotal_update {db : Database} (h : db.Coherent) {file : TableFile}
    (hfile : db.catalog.file file.id = .ok file) (txn : TransactionId) (id : PageId)
    (edit : PageEdit Unit) :
    file.pageTotal (after (update txn id edit) db).volume = file.pageTotal db.volume := by
  have hfetch := (h.pages (fetch_pages h id).1).2.pages file hfile
  rcases after_update txn id edit db with heq | ⟨_, _, _, heq⟩ <;> rw [heq] <;> exact hfetch

theorem Coherent.pageTotal_delete {db : Database} (h : db.Coherent) {file : TableFile}
    (hfile : db.catalog.file file.id = .ok file) (txn : TransactionId) (t : Tuple) :
    file.pageTotal (after (deleteTuple txn t) db).volume = file.pageTotal db.volume := by
  cases hrecord : t.record with
  | none => rw [after_of_error (deleteTuple_of_noRecord txn hrecord db)]
  | some record =>
    cases hhome : db.catalog.file record.page.table with
    | error e => rw [after_of_error (deleteTuple_of_missing txn hrecord hhome)]
    | ok home =>
      have hdelete := deleteTuple_eq txn hrecord hhome
      cases hcheck : home.checkPage db.volume record.page with
      | error e =>
        rw [hcheck] at hdelete
        rw [after_of_error hdelete]
      | ok _ =>
        rw [hcheck] at hdelete
        rw [after_unanswered hdelete]
        exact h.pageTotal_update hfile txn record.page (Page.delete t)

end Database

namespace Call
open Database

/-- The call edits tuples only, and if it is an insert, then into a table with page numbers left, and it
succeeds. -/
structure Stores (call : Call) (db : Database) : Prop where
  edits : call.EditsTuples
  small : call.IntoSmall db
  succeeds : ∀ txn table t, call = .insert txn table t → call.Succeeds db

theorem Stores.pages_cases {call : Call} {db : Database} (hstores : call.Stores db) (h : db.Coherent)
    {file : TableFile} (hfile : db.catalog.file file.id = .ok file) :
    file.pageTotal (call.leaves db).volume = file.pageTotal db.volume ∨
      file.pageTotal db.volume + 1 < UInt32.size ∧
        file.pageTotal (call.leaves db).volume = file.pageTotal db.volume + 1 ∧
        (call.leaves db).rowTotal file = file.slotCount * file.pageTotal db.volume + 1 := by
  by_cases hpages : call.OnlyPages
  · exact Or.inl ((h.pages (call.leaves_pages hpages h)).2.pages file hfile)
  cases call with
  | insert txn table t =>
    obtain ⟨db', hok⟩ := hstores.succeeds txn table t rfl
    rw [leaves, after_of_ok hok]
    cases hhome : db.catalog.file table with
    | error e =>
      rw [perform, insertTuple_of_missing txn t hhome] at hok
      cases hok
    | ok home =>
      rw [perform, insertTuple_eq txn t hhome] at hok
      split at hok
      · obtain ⟨_, hinsert⟩ := unanswered_eq_ok hok
        have hsmall := hstores.small home hhome
        have hinserted := h.insertAmong_ok (h.registered hhome)
          ((Nat.zero_add _).trans (TableFile.numPages_toNat hsmall)) hsmall hinsert
        by_cases hid : file.id = home.id
        · cases h.file_eq hhome hfile hid
          exact hinserted.pages_cases h hfile
        · exact Or.inl (hinserted.others.2 file hfile hid).1
      · cases hok
  | delete txn t => exact Or.inl (h.pageTotal_delete hfile txn t)
  | update txn id edit => exact hstores.edits.elim
  | discard id => exact Or.inl rfl
  | complete txn commit =>
    cases commit with
    | true => exact absurd rfl hpages
    | false => exact Or.inl (congrArg file.pageTotal (volume_abort txn db).1)
  | fetch _ | flushPage _ | flushTransaction _ | flushAll | flushList _ => exact absurd trivial hpages

end Call

/-- Every call of the run is proper in the database that it finds. -/
def EachCall (proper : Call → Database → Prop) : List Call → Database → Prop
  | [], _ => True
  | call :: calls, db => proper call db ∧ EachCall proper calls (call.leaves db)

namespace Database

/-- The largest number of tuples that the file has at the same time during the calls. -/
def peak (file : TableFile) : List Call → Database → Nat
  | [], db => (db.tuplesOf file).length
  | call :: calls, db => max (db.tuplesOf file).length (peak file calls (call.leaves db))

/-- The file has the pages that are needed for `most` tuples, and no other. -/
structure Tight (file : TableFile) (most : Nat) (db : Database) : Prop where
  coherent : db.Coherent
  registered : db.catalog.file file.id = .ok file
  small : file.pageTotal db.volume < UInt32.size
  enough : most ≤ file.slotCount * file.pageTotal db.volume
  needed : file.slotCount * file.pageTotal db.volume < most + file.slotCount

theorem Tight.stored {file : TableFile} {most : Nat} {db : Database} (h : Tight file most db) :
    Tight file (max most (db.tuplesOf file).length) db := by
  obtain ⟨hcoherent, hfile, hsmall, henough, hneeded⟩ := h
  have hrows := hcoherent.rowTotal_le hfile
  rw [← hcoherent.length_tuplesOf hfile hsmall] at hrows
  exact ⟨hcoherent, hfile, hsmall, Nat.max_le.mpr ⟨henough, hrows⟩, by omega⟩

theorem Tight.leaves {file : TableFile} {most : Nat} {db : Database} (h : Tight file most db)
    {call : Call} (hstores : call.Stores db) :
    Tight file (max most ((call.leaves db).tuplesOf file).length) (call.leaves db) := by
  have hcoherent := h.coherent.steps (Call.leaves_steps hstores.edits h.coherent hstores.small)
  have hfile : (call.leaves db).catalog.file file.id = .ok file := by
    rw [(inOrder_leaves call h.coherent.inOrder).2.catalog]
    exact h.registered
  rcases hstores.pages_cases h.coherent h.registered with hsame | ⟨hnumbered, hmore, hrows⟩
  · apply Tight.stored
    exact ⟨hcoherent, hfile, hsame ▸ h.small, hsame ▸ h.enough, hsame ▸ h.needed⟩
  · have hsmall : file.pageTotal (call.leaves db).volume < UInt32.size := hmore ▸ hnumbered
    have hbefore := h.enough
    have hpos : 0 < file.slotCount := file.slotCount_pos
    -- The pages were enough for the peak and are full now, so one tuple more is the new peak.
    rw [hcoherent.length_tuplesOf hfile hsmall, hrows, Nat.max_eq_right (by omega)]
    refine ⟨hcoherent, hfile, hsmall, ?_, ?_⟩ <;> rw [hmore, Nat.mul_succ] <;> omega

theorem Tight.run {file : TableFile} {calls : List Call} {most : Nat} {db : Database}
    (h : Tight file (max most (db.tuplesOf file).length) db) (hcalls : EachCall Call.Stores calls db) :
    Tight file (max most (peak file calls db)) (run calls db) := by
  induction calls generalizing most db with
  | nil => exact h
  | cons call calls ih =>
    rw [peak, ← Nat.max_assoc]
    exact ih (h.leaves hcalls.1) hcalls.2

theorem Tight.pageTotal_eq {file : TableFile} {most : Nat} {db : Database} (h : Tight file most db) :
    file.pageTotal db.volume = most ⌈/⌉ file.slotCount := by
  have hpos : 0 < file.slotCount := file.slotCount_pos
  apply Nat.le_antisymm
  · apply Nat.le_of_not_lt
    intro hfewer
    obtain ⟨fewer, hfewer'⟩ := Nat.exists_eq_add_of_lt hfewer
    have hroom := (ceilDiv_le_iff_le_mul hpos).mp (Nat.le_add_right (most ⌈/⌉ file.slotCount) fewer)
    have hneeded := h.needed
    rw [hfewer', Nat.mul_succ] at hneeded
    omega
  · exact (ceilDiv_le_iff_le_mul hpos).mpr h.enough

theorem Fresh.tight {db : Database} (h : db.Fresh) {file : TableFile}
    (hfile : db.catalog.file file.id = .ok file) (hempty : db.volume.bytes file.pages.name = []) :
    Tight file 0 db := by
  have htotal := TableFile.pageTotal_of_empty hempty
  refine ⟨h.coherent, hfile, ?_, Nat.zero_le _, ?_⟩ <;> rw [htotal]
  · decide
  · rw [Nat.mul_zero, Nat.zero_add]
    exact file.slotCount_pos

/-- A file that starts without pages has, after any calls whose inserts succeed, exactly the pages that
its largest number of tuples needs. -/
theorem numPages_eq_ceilDiv_peak {start : Database} (h : start.Fresh) {file : TableFile}
    (hfile : start.catalog.file file.id = .ok file) (hempty : start.volume.bytes file.pages.name = [])
    {calls : List Call} (hcalls : EachCall Call.Stores calls start) :
    (file.numPages (run calls start).volume).toNat = peak file calls start ⌈/⌉ file.slotCount := by
  have htight := (h.tight hfile hempty).stored.run hcalls
  rw [Nat.zero_max] at htight
  rw [TableFile.numPages_toNat htight.small, htight.pageTotal_eq]

/-- With two slots a page, three tuples at a time need two pages, whichever tuples they are. -/
theorem numPages_eq_ceilDiv_peak_two_slots :
    let schema : Schema := ⟨[{ type := .integer }], List.cons_ne_nil _ _⟩
    let start := withTable { pageSize := 9, poolPages := 1 } "t" schema
    let file : TableFile := ⟨0, ⟨"t", 9⟩, schema, by decide, by decide⟩
    let insert (value : Int32) : Call := .insert ⟨1⟩ (.file "t") ⟨schema, [.int value], none⟩
    let calls : List Call := [insert 3, insert 4, .fetch ⟨.file "t", 0⟩, insert 5,
      .delete ⟨1⟩ ⟨schema, [.int 3], some ⟨⟨.file "t", 0⟩, 0⟩⟩, .complete ⟨1⟩ true, insert 6, .flushAll,
      .delete ⟨2⟩ ⟨schema, [.int 5], some ⟨⟨.file "t", 1⟩, 0⟩⟩]
    start.Fresh ∧ start.catalog.file file.id = .ok file ∧ start.volume.bytes file.pages.name = [] ∧
      EachCall Call.Stores calls start ∧ peak file calls start = 3 ∧ file.slotCount = 2 ∧
      (file.numPages (run calls start).volume).toNat = 3 ⌈/⌉ 2 := by
  intro schema start file insert calls
  have hfresh : start.Fresh := fresh_withTable _ _ _
  have hfile : start.catalog.file file.id = .ok file := by decide +kernel
  have hempty : start.volume.bytes file.pages.name = [] := bytes_withTable _ _ _ _
  have hinsert (value : Int32) {db : Database} (hsmall : db.Small)
      (hok : outcome ((insert value).perform db) = .ok ()) : (insert value).Stores db := by
    refine ⟨?_, Call.intoSmall_of_small _ hsmall, fun _ _ _ _ => exists_ok_of_outcome hok⟩
    have hfields : Tuple.ofFields schema [.int value] = .ok ⟨schema, [.int value], none⟩ := rfl
    exact Tuple.Built.ofFields hfields
  have hcalls : EachCall Call.Stores calls start :=
    ⟨hinsert 3 (by decide +kernel) (by decide +kernel), hinsert 4 (by decide +kernel) (by decide +kernel),
      ⟨trivial, trivial, nofun⟩, hinsert 5 (by decide +kernel) (by decide +kernel),
      ⟨trivial, trivial, nofun⟩, ⟨trivial, trivial, nofun⟩,
      hinsert 6 (by decide +kernel) (by decide +kernel), ⟨trivial, trivial, nofun⟩,
      ⟨trivial, trivial, nofun⟩, trivial⟩
  have hpeak : peak file calls start = 3 := by decide +kernel
  have hslots : file.slotCount = 2 := by decide
  have hpages := numPages_eq_ceilDiv_peak hfresh hfile hempty hcalls
  rw [hpeak, hslots] at hpages
  exact ⟨hfresh, hfile, hempty, hcalls, hpeak, hslots, hpages⟩

end Database
end RowStore
