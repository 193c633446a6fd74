import RowStore.Proofs.FifoDiscipline
import RowStore.Proofs.Scans
import RowStore.Proofs.Sheets

/-!
# The pool is transparent

Started on empty files, the tables behave like sheets without any cache: after every run of fetches,
inserts, deletes, flushes and commits the pages that readers see have the rows of the sheets, and a
call succeeds exactly if it is not refused for the sheets. The capacity of the pool plays no part.
-/
namespace RowStore
open Relation

namespace Database

/-- What an insert that starts looking at page `page` does to the rows. -/
inductive Inserted (db db' : Database) (file : TableFile) (page : Nat) (row : List Field) : Prop
  /-- It sets the first free row. -/
  | free (n : PageNo) (slot : Nat) (start : page ≤ n.toNat) (counted : n.toNat < file.pageTotal db.volume)
      (first : (db.rowsAt file n).findIdx? Option.isNone = some slot)
      (full : ∀ m : PageNo, page ≤ m.toNat → m.toNat < n.toNat →
        (db.rowsAt file m).findIdx? Option.isNone = none)
      (set : RowSet db db' file n slot (some row))
  /-- It sets the first row of a new page behind the last. -/
  | behind (n : PageNo) (last : n.toNat = file.pageTotal db.volume)
      (numbered : n.toNat + 1 < UInt32.size)
      (full : ∀ m : PageNo, page ≤ m.toNat → m.toNat < n.toNat →
        (db.rowsAt file m).findIdx? Option.isNone = none)
      (tables : SameTables db db')
      (pages : ∀ other, db.catalog.file other.id = .ok other → other.pageTotal db'.volume =
        if other.id = file.id then other.pageTotal db.volume + 1 else other.pageTotal db.volume)
      (rows : ∀ other, db.catalog.file other.id = .ok other → ∀ m, db'.rowsAt other m =
        if (⟨other.id, m⟩ : PageId) = ⟨file.id, n⟩ then
          (List.replicate file.slotCount none).set 0 (some row)
        else db.rowsAt other m)

theorem later_or_full {db : Database} {file : TableFile} {page : Nat}
    (hfull : (db.rowsAt file (UInt32.ofNat page)).findIdx? Option.isNone = none)
    (hpage : (UInt32.ofNat page).toNat = page) (m : PageNo) (hm : page ≤ m.toNat) :
    page + 1 ≤ m.toNat ∨ (db.rowsAt file m).findIdx? Option.isNone = none := by
  rcases Nat.lt_or_eq_of_le hm with hlt | heq
  · exact Or.inl hlt
  · right
    have hn : m = UInt32.ofNat page := UInt32.toNat_inj.mp (by rw [hpage, heq])
    rw [hn]
    exact hfull

theorem Inserted.pass {db middle db' : Database} {file : TableFile} {page : Nat} {row : List Field}
    (hfile : db.catalog.file file.id = .ok file) (hsame : SameRows db middle)
    (hfull : (db.rowsAt file (UInt32.ofNat page)).findIdx? Option.isNone = none)
    (hpage : (UInt32.ofNat page).toNat = page) (h : Inserted middle db' file (page + 1) row) :
    Inserted db db' file page row := by
  have hpassed := later_or_full hfull hpage
  cases h with
  | free n slot hstart hcounted hfirst hbefore hset =>
    rw [hsame.pages file hfile] at hcounted
    rw [hsame.rows file hfile] at hfirst
    apply Inserted.free n slot (Nat.le_of_succ_le hstart) hcounted hfirst _ (hset.of_sameRows hsame)
    intro m hm hlt
    rcases hpassed m hm with hnext | hdone
    · rw [← hsame.rows file hfile]
      exact hbefore m hnext hlt
    · exact hdone
  | behind n hlast hnumbered hbefore htables hpages hrows =>
    rw [hsame.pages file hfile] at hlast
    apply Inserted.behind n hlast hnumbered _ (hsame.tables.trans htables)
    · intro other hother
      rw [hpages other (by rwa [hsame.tables.catalog]), hsame.pages other hother]
    · intro other hother m
      rw [hrows other (by rwa [hsame.tables.catalog]), hsame.rows other hother]
    · intro m hm hlt
      rcases hpassed m hm with hnext | hdone
      · rw [← hsame.rows file hfile]
        exact hbefore m hnext hlt
      · exact hdone

theorem Ready.appending {db : Database} (h : db.Ready) {file : TableFile} {n : PageNo}
    (hfile : db.catalog.file file.id = .ok file) (hlast : n.toNat = file.pageTotal db.volume) :
    (db.appending file n).Ready := by
  constructor
  case coherent => exact h.coherent.appending hfile hlast
  case room => exact h.room
  case holds =>
    intro other hother m hm row hrow
    rw [rowsAt_appending h.coherent hfile hlast hother] at hrow
    split at hrow
    · have hnone := List.eq_of_mem_replicate hrow
      cases hnone
    · next hne =>
      rw [pageTotal_appending h.coherent hfile hlast hother] at hm
      apply h.holds other hother m _ row hrow
      split at hm
      · next hid =>
        cases h.coherent.file_eq hfile hother hid
        -- The new page has no rows, so the row is on a page before it.
        have hnumber : m ≠ n := fun heq => hne (by rw [heq])
        have hdistinct : m.toNat ≠ n.toNat := fun heq => hnumber (UInt32.toNat_inj.mp heq)
        rw [← hlast] at hm ⊢
        exact Nat.lt_of_le_of_ne (Nat.le_of_lt_succ hm) hdistinct
      · exact hm

theorem Coherent.firstFree_appending {db : Database} (h : db.Coherent) {file : TableFile} {n : PageNo}
    (hfile : db.catalog.file file.id = .ok file) (hlast : n.toNat = file.pageTotal db.volume) :
    ((db.appending file n).rowsAt file n).findIdx? Option.isNone = some 0 := by
  rw [rowsAt_appending h hfile hlast hfile, if_pos rfl, List.findIdx?_eq_some_iff_getElem]
  refine ⟨?_, ?_, fun j hj => absurd hj (Nat.not_lt_zero j)⟩
  · rw [List.length_replicate]
    exact file.slotCount_pos
  · rw [List.getElem_replicate]
    rfl

theorem Coherent.insertedBehind {db db' : Database} (h : db.Coherent) {file : TableFile} {n : PageNo}
    (hfile : db.catalog.file file.id = .ok file) (hlast : n.toNat = file.pageTotal db.volume)
    (hsmall : n.toNat + 1 < UInt32.size) {row : List Field}
    (hset : RowSet (db.appending file n) db' file n 0 (some row)) :
    Inserted db db' file n.toNat row := by
  apply Inserted.behind n hlast hsmall (fun m hm hlt => absurd hlt (Nat.not_lt_of_le hm))
  · exact (sameTables_storing db file n _).trans hset.tables
  · intro other hother
    rw [hset.pages other hother]
    exact pageTotal_appending h hfile hlast hother
  · intro other hother m
    rw [hset.rows other hother, rowsAt_appending h hfile hlast hother]
    split <;> rfl

theorem Coherent.update_appending {db : Database} (h : db.Coherent) {file : TableFile} {n : PageNo}
    (hfile : db.catalog.file file.id = .ok file) (hlast : n.toNat = file.pageTotal db.volume)
    (hlimit : UInt32.size ≤ n.toNat + 1) (txn : TransactionId) (edit : PageEdit Unit) :
    update txn ⟨file.id, n⟩ edit (db.appending file n) =
      .error (.error (.pageNotFound ⟨file.id, n⟩ 0)) (db.appending file n) := by
  have htotal := pageTotal_appending h hfile hlast hfile
  have hsize : UInt32.size = n.toNat + 1 := Nat.le_antisymm hlimit n.toNat_lt
  rw [if_pos rfl, ← hlast, ← hsize] at htotal
  have hnone : file.numPages (db.appending file n).volume = 0 := by
    rw [TableFile.numPages, PageFile.pageCount_eq_ofNat]
    exact (congrArg UInt32.ofNat htotal).trans rfl
  have hmiss : (db.appending file n).pool.frames.get? ⟨file.id, n⟩ = none :=
    Option.map_eq_none_iff.mp (h.missing_of_last hfile hlast)
  have hread : readPage file ⟨file.id, n⟩ (db.appending file n) =
      .error (.error (.pageNotFound ⟨file.id, n⟩ 0)) (db.appending file n) := by
    rw [readPage, TableFile.checkPage, hnone]
    simp
  apply update_of_fetch_error
  rw [fetch_of_missing hmiss hfile, hread]

theorem Coherent.insertBehind_ok {db db' : Database} (h : db.Coherent) {file : TableFile} {n : PageNo}
    (hfile : db.catalog.file file.id = .ok file) (hlast : n.toNat = file.pageTotal db.volume) {t : Tuple}
    {txn : TransactionId} {frame : Frame}
    (hupdate : update txn ⟨file.id, n⟩ (insertEdit t) (db.appending file n) = .ok frame db') :
    Inserted db db' file n.toNat t.fields := by
  have hnext : n.toNat + 1 < UInt32.size := by
    apply Nat.lt_of_not_le
    intro hlimit
    rw [h.update_appending hfile hlast hlimit txn (insertEdit t)] at hupdate
    cases hupdate
  obtain ⟨slot, hslot, hset⟩ := (h.appending hfile hlast).insertAt hfile hupdate
  rw [h.firstFree_appending hfile hlast] at hslot
  cases hslot
  exact h.insertedBehind hfile hlast hnext hset

theorem Coherent.insertAmong_ok {file : TableFile} {txn : TransactionId} {t : Tuple} {left page : Nat}
    {db db' : Database} {frames : List Frame} (h : db.Coherent)
    (hfile : db.catalog.file file.id = .ok file) (hleft : page + left = file.pageTotal db.volume)
    (hsmall : file.pageTotal db.volume < UInt32.size)
    (hinsert : insertAmong file txn t page left db = .ok frames db') :
    Inserted db db' file page t.fields := by
  have hpage : (UInt32.ofNat page).toNat = page := UInt32.toNat_ofNat_of_lt' (by omega)
  induction left generalizing page db with
  | zero =>
    obtain ⟨frame, rfl, hupdate⟩ := updateList_eq_ok ((insertAmong_zero file txn t page db).symm.trans hinsert)
    have hinserted := h.insertBehind_ok hfile (hpage.trans hleft) hupdate
    rwa [hpage] at hinserted
  | succ left ih =>
    rw [insertAmong_succ] at hinsert
    cases hfetch : fetch ⟨file.id, UInt32.ofNat page⟩ db with
    | error e middle =>
      rw [hfetch] at hinsert
      cases hinsert
    | ok frame middle =>
      obtain ⟨hpages, _, home, _, hhome, hid, hrows⟩ := h.fetch_shows hfetch
      cases h.file_eq hfile hhome hid
      obtain ⟨hcoherent, hsame⟩ := h.pages hpages
      have hmiddle : middle.catalog.file file.id = .ok file := by rwa [hsame.tables.catalog]
      have htotal := hsame.pages file hfile
      rw [hfetch] at hinsert
      dsimp only at hinsert
      split at hinsert
      · obtain ⟨_, rfl, hupdate⟩ := updateList_eq_ok hinsert
        obtain ⟨slot, hslot, hset⟩ := hcoherent.insertAt hmiddle hupdate
        rw [hsame.rows file hfile] at hslot
        refine Inserted.free (UInt32.ofNat page) slot (Nat.le_of_eq hpage.symm) (by omega) hslot ?_
          (hset.of_sameRows hsame)
        intro m hm hlt
        rw [hpage] at hlt
        exact absurd hlt (Nat.not_lt_of_le hm)
      · next hempty =>
        rw [Page.numEmptySlots_pos_iff, hrows] at hempty
        have hnext : (UInt32.ofNat (page + 1)).toNat = page + 1 := UInt32.toNat_ofNat_of_lt' (by omega)
        have hinserted := ih hcoherent hmiddle (by omega) (by omega) hinsert hnext
        exact hinserted.pass hfile hsame (Classical.not_not.mp hempty) hpage

theorem Ready.insertBehind {db : Database} (h : db.Ready) {file : TableFile} {n : PageNo}
    (hfile : db.catalog.file file.id = .ok file) (hlast : n.toNat = file.pageTotal db.volume)
    (hsmall : n.toNat + 1 < UInt32.size) {t : Tuple} (hagrees : t.schema.Agrees file.schema)
    (hvalid : t.Valid) (txn : TransactionId) :
    ∃ frame db', update txn ⟨file.id, n⟩ (insertEdit t) (db.appending file n) = .ok frame db' ∧
      db'.Ready := by
  have hready := h.appending hfile hlast
  have htotal := pageTotal_appending h.coherent hfile hlast hfile
  rw [if_pos rfl] at htotal
  have hcheck : file.checkPage (db.appending file n).volume ⟨file.id, n⟩ = .ok () :=
    TableFile.checkPage_of_counted (by omega) (by omega)
  have hfirst := h.coherent.firstFree_appending hfile hlast
  obtain ⟨frame, db', hupdate, hdone, _⟩ := hready.insertAt hfile hcheck hagrees hvalid hfirst txn
  exact ⟨frame, db', hupdate, hdone⟩

/-- The pages from `page` on are full, and a page is appended for which there is no number. -/
structure Overfull (db db' : Database) (file : TableFile) (page : Nat) : Prop where
  full : ∀ m : PageNo, page ≤ m.toNat → m.toNat < file.pageTotal db.volume →
    (db.rowsAt file m).findIdx? Option.isNone = none
  pages : file.pageTotal db'.volume = file.pageTotal db.volume + 1
  limit : UInt32.size ≤ file.pageTotal db.volume + 1

theorem Overfull.pass {db middle db' : Database} {file : TableFile} {page : Nat}
    (hfile : db.catalog.file file.id = .ok file) (hsame : SameRows db middle)
    (hfull : (db.rowsAt file (UInt32.ofNat page)).findIdx? Option.isNone = none)
    (hpage : (UInt32.ofNat page).toNat = page) (h : Overfull middle db' file (page + 1)) :
    Overfull db db' file page := by
  obtain ⟨hrest, hpages, hlimit⟩ := h
  rw [hsame.pages file hfile] at hrest hpages hlimit
  refine ⟨fun m hm hcounted => ?_, hpages, hlimit⟩
  rcases later_or_full hfull hpage m hm with hnext | hdone
  · rw [← hsame.rows file hfile]
    exact hrest m hnext hcounted
  · exact hdone

theorem Ready.insertAmong_last {db : Database} (h : db.Ready) {file : TableFile} {page : Nat}
    (hfile : db.catalog.file file.id = .ok file) (hpage : (UInt32.ofNat page).toNat = page)
    (hleft : page = file.pageTotal db.volume) (txn : TransactionId) {t : Tuple} (hvalid : t.Valid)
    (hagrees : t.schema.Agrees file.schema) :
    (∃ frames db', insertAmong file txn t page 0 db = .ok frames db' ∧ db'.Ready) ∨
    ∃ e db', insertAmong file txn t page 0 db = .error e db' ∧ Overfull db db' file page := by
  have hlast : (UInt32.ofNat page).toNat = file.pageTotal db.volume := hpage.trans hleft
  have happend := insertAmong_zero file txn t page db
  by_cases hsmall : (UInt32.ofNat page).toNat + 1 < UInt32.size
  · obtain ⟨frame, db', hupdate, hready⟩ := h.insertBehind hfile hlast hsmall hagrees hvalid txn
    exact Or.inl ⟨[frame], db', happend.trans (updateList_of_ok hupdate), hready⟩
  · right
    have hlimit := Nat.le_of_not_lt hsmall
    have hupdate := h.coherent.update_appending hfile hlast hlimit txn (insertEdit t)
    have htotal := pageTotal_appending h.coherent hfile hlast hfile
    rw [if_pos rfl] at htotal
    refine ⟨_, _, happend.trans (updateList_of_error hupdate), ?_, htotal, by omega⟩
    exact fun m hm hcounted => absurd hcounted (Nat.not_lt_of_le (hleft ▸ hm))

theorem Ready.insertAmong_ends {file : TableFile} (txn : TransactionId) {t : Tuple} (hvalid : t.Valid)
    (hagrees : t.schema.Agrees file.schema) (left page : Nat) {db : Database} (h : db.Ready)
    (hfile : db.catalog.file file.id = .ok file) (hleft : page + left = file.pageTotal db.volume)
    (hsmall : file.pageTotal db.volume < UInt32.size) :
    (∃ frames db', insertAmong file txn t page left db = .ok frames db' ∧ db'.Ready) ∨
    ∃ e db', insertAmong file txn t page left db = .error e db' ∧ Overfull db db' file page := by
  have hpage : (UInt32.ofNat page).toNat = page := UInt32.toNat_ofNat_of_lt' (by omega)
  induction left generalizing page db with
  | zero => exact h.insertAmong_last hfile hpage hleft txn hvalid hagrees
  | succ left ih =>
    have hn : (UInt32.ofNat page).toNat < file.pageTotal db.volume := by
      rw [hpage]
      omega
    obtain ⟨frame, middle, hfetch⟩ := h.fetch_ok (TableFile.checkPage_of_counted hsmall hn) hfile
    obtain ⟨hpages, _, home, _, hhome, hid, hrows⟩ := h.coherent.fetch_shows hfetch
    cases h.coherent.file_eq hfile hhome hid
    obtain ⟨hready, hsame⟩ := h.pages hpages
    have hmiddle : middle.catalog.file file.id = .ok file := by rwa [hsame.tables.catalog]
    have htotal := hsame.pages file hfile
    have hstart := insertAmong_succ file txn t page left db
    rw [hfetch] at hstart
    dsimp only at hstart
    cases hslot : (db.rowsAt file (UInt32.ofNat page)).findIdx? Option.isNone with
    | some slot =>
      have hempty : 0 < frame.page.numEmptySlots := by
        rw [Page.numEmptySlots_pos_iff, hrows, hslot]
        exact Option.some_ne_none slot
      rw [if_pos hempty] at hstart
      rw [← hsame.rows file hfile] at hslot
      rw [← htotal] at hsmall hn
      have hcheck : file.checkPage middle.volume ⟨file.id, UInt32.ofNat page⟩ = .ok () :=
        TableFile.checkPage_of_counted hsmall hn
      obtain ⟨frame, db', hupdate, hdone, _⟩ :=
        hready.insertAt hmiddle hcheck hagrees hvalid hslot txn
      exact Or.inl ⟨[frame], db', hstart.trans (updateList_of_ok hupdate), hdone⟩
    | none =>
      have hfull : ¬ 0 < frame.page.numEmptySlots := by
        rw [Page.numEmptySlots_pos_iff, hrows, hslot]
        exact fun hne => hne rfl
      rw [if_neg hfull] at hstart
      have hnext : (UInt32.ofNat (page + 1)).toNat = page + 1 := UInt32.toNat_ofNat_of_lt' (by omega)
      rcases ih (page + 1) hready hmiddle (by rw [htotal]; omega) (by rw [htotal]; exact hsmall) hnext with
        ⟨frames, db', hinsert, hdone⟩ | ⟨e, db', hinsert, hover⟩
      · exact Or.inl ⟨frames, db', hstart.trans hinsert, hdone⟩
      · exact Or.inr ⟨e, db', hstart.trans hinsert, hover.pass hfile hsame hslot hpage⟩

/-- The insert sets the first free row or the first of a new page, unless it needs a page without a
number. Then it fails. -/
theorem Ready.insertAmong_cases {file : TableFile} (txn : TransactionId) {t : Tuple} (hvalid : t.Valid)
    (hagrees : t.schema.Agrees file.schema) (left page : Nat) {db : Database} (h : db.Ready)
    (hfile : db.catalog.file file.id = .ok file) (hleft : page + left = file.pageTotal db.volume)
    (hsmall : file.pageTotal db.volume < UInt32.size) :
    (∃ frames db', insertAmong file txn t page left db = .ok frames db' ∧ db'.Ready ∧
      Inserted db db' file page t.fields) ∨
    ∃ e db', insertAmong file txn t page left db = .error e db' ∧ Overfull db db' file page := by
  rcases h.insertAmong_ends txn hvalid hagrees left page hfile hleft hsmall with
    ⟨frames, db', hinsert, hdone⟩ | hfails
  · exact Or.inl ⟨frames, db', hinsert, hdone, h.coherent.insertAmong_ok hfile hleft hsmall hinsert⟩
  · exact Or.inr hfails

/-- The sheet has the pages of the file and the rows that readers see. -/
structure Shows (db : Database) (file : TableFile) (sheet : Sheet) : Prop where
  pages : sheet.pages = file.pageTotal db.volume
  cells : ∀ page slot, sheet.cells.get? (page, slot) =
    if page < sheet.pages then (db.rowsAt file (UInt32.ofNat page))[slot]?.join else none

/-- Every registered table has its sheet. -/
def Matches (db : Database) (sheets : Sheets) : Prop :=
  ∀ file, db.catalog.file file.id = .ok file → Shows db file (sheets file.id)

theorem Shows.of_same {db db' : Database} {file : TableFile} {sheet : Sheet} (h : Shows db file sheet)
    (hpages : file.pageTotal db'.volume = file.pageTotal db.volume)
    (hrows : ∀ n, db'.rowsAt file n = db.rowsAt file n) : Shows db' file sheet := by
  constructor
  case pages => rw [h.pages, hpages]
  case cells =>
    intro page slot
    rw [h.cells, hrows]

theorem Matches.of_sameRows {db db' : Database} {sheets : Sheets} (h : Matches db sheets)
    (hsame : SameRows db db') : Matches db' sheets := by
  intro file hfile
  rw [hsame.tables.catalog] at hfile
  exact (h file hfile).of_same (hsame.pages file hfile) (hsame.rows file hfile)

theorem Matches.update {db db' : Database} {sheets : Sheets} (h : Matches db sheets)
    (hcatalog : db'.catalog = db.catalog) {table : TableId} {sheet : Sheet}
    (hother : ∀ other, db.catalog.file other.id = .ok other → other.id ≠ table →
      other.pageTotal db'.volume = other.pageTotal db.volume ∧
        ∀ n, db'.rowsAt other n = db.rowsAt other n)
    (hsheet : ∀ file, db.catalog.file file.id = .ok file → file.id = table → Shows db' file sheet) :
    Matches db' (Sheets.put sheets table sheet) := by
  intro file hfile
  rw [hcatalog] at hfile
  rw [Sheets.put]
  by_cases hid : file.id = table
  · rw [if_pos hid]
    exact hsheet file hfile hid
  · obtain ⟨hpages, hrows⟩ := hother file hfile hid
    rw [if_neg hid]
    exact (h file hfile).of_same hpages hrows

theorem Shows.rowSet {db db' : Database} {file : TableFile} {sheet : Sheet} (h : Shows db file sheet)
    (hfile : db.catalog.file file.id = .ok file) (hsmall : file.pageTotal db.volume < UInt32.size)
    {n : PageNo} {slot : Nat} {row : Option (List Field)} (hset : RowSet db db' file n slot row)
    (hn : n.toNat < file.pageTotal db.volume) (hslot : slot < (db.rowsAt file n).length)
    {cells : Assoc Place (List Field)}
    (hcells : ∀ place, cells.get? place = if place = (n.toNat, slot) then row else
      sheet.cells.get? place) : Shows db' file { sheet with cells } := by
  constructor
  case pages => rw [hset.pages file hfile, ← h.pages]
  case cells =>
    intro page other
    rw [hcells, h.cells, hset.rows file hfile]
    dsimp only
    by_cases hpage : page < sheet.pages
    · rw [if_pos hpage, if_pos hpage]
      by_cases hsame : page = n.toNat
      · subst hsame
        rw [UInt32.ofNat_toNat, if_pos rfl, List.getElem?_set]
        by_cases heq : slot = other
        · rw [if_pos heq, if_pos hslot, if_pos (by rw [heq])]
          rfl
        · rw [if_neg heq, if_neg fun h => heq (congrArg Prod.snd h).symm]
      · rw [if_neg fun h => hsame (congrArg Prod.fst h), if_neg]
        intro hid
        have hnumber : UInt32.ofNat page = n := congrArg PageId.number hid
        rw [← hnumber, UInt32.toNat_ofNat_of_lt' (Nat.lt_trans (h.pages ▸ hpage) hsmall)] at hsame
        exact hsame rfl
    · rw [if_neg hpage, if_neg hpage, if_neg]
      intro heq
      have hfirst : page = n.toNat := congrArg Prod.fst heq
      apply hpage
      rw [h.pages, hfirst]
      exact hn

/-- There are no cells but those of the pages' slots. -/
theorem Shows.bounded {db : Database} {file : TableFile} {sheet : Sheet} (h : Shows db file sheet)
    (hcoherent : db.Coherent) (hfile : db.catalog.file file.id = .ok file) :
    sheet.Bounded file.slotCount := by
  intro place hrow
  rw [h.cells] at hrow
  split at hrow
  · next hpage =>
    refine ⟨hpage, ?_⟩
    rw [← hcoherent.length_rowsAt hfile (UInt32.ofNat place.1)]
    apply Nat.lt_of_not_le
    intro hslot
    rw [List.getElem?_eq_none hslot] at hrow
    exact hrow rfl
  · exact absurd rfl hrow

theorem Shows.taken {db : Database} {file : TableFile} {sheet : Sheet} (h : Shows db file sheet)
    (hcoherent : db.Coherent) (hfile : db.catalog.file file.id = .ok file)
    (hsmall : file.pageTotal db.volume < UInt32.size) {bound : Nat}
    (hfull : ∀ m : PageNo, 0 ≤ m.toNat → m.toNat < bound →
      (db.rowsAt file m).findIdx? Option.isNone = none)
    {page slot : Nat} (hpage : page < sheet.pages) (hbound : page < bound)
    (hslot : slot < file.slotCount) : sheet.cells.get? (page, slot) ≠ none := by
  rw [h.cells, if_pos hpage]
  apply join_ne_none_of_full
  · apply hfull _ (Nat.zero_le _)
    rwa [UInt32.toNat_ofNat_of_lt' (Nat.lt_trans (h.pages ▸ hpage) hsmall)]
  · rwa [hcoherent.length_rowsAt hfile]

theorem Shows.free?_eq_none {db : Database} {file : TableFile} {sheet : Sheet} (h : Shows db file sheet)
    (hcoherent : db.Coherent) (hfile : db.catalog.file file.id = .ok file)
    (hsmall : file.pageTotal db.volume < UInt32.size)
    (hfull : ∀ m : PageNo, 0 ≤ m.toNat → m.toNat < file.pageTotal db.volume →
      (db.rowsAt file m).findIdx? Option.isNone = none) : sheet.free? file.slotCount = none := by
  rw [Sheet.free?_eq_none_iff]
  rintro ⟨page, slot⟩ hpage hslot
  apply h.taken hcoherent hfile hsmall hfull hpage _ hslot
  rw [← h.pages]
  exact hpage

theorem Shows.insertedFree {db db' : Database} {file : TableFile} {sheet : Sheet}
    (h : Shows db file sheet) (hcoherent : db.Coherent)
    (hfile : db.catalog.file file.id = .ok file) (hsmall : file.pageTotal db.volume < UInt32.size)
    {row : List Field} {n : PageNo} {slot : Nat} (hcounted : n.toNat < file.pageTotal db.volume)
    (hfirst : (db.rowsAt file n).findIdx? Option.isNone = some slot)
    (hfull : ∀ m : PageNo, 0 ≤ m.toNat → m.toNat < n.toNat →
      (db.rowsAt file m).findIdx? Option.isNone = none)
    (hset : RowSet db db' file n slot (some row)) :
    Shows db' file (sheet.insert file.slotCount row) := by
  obtain ⟨hslot, hnone, hbefore⟩ := join_eq_none_of_first hfirst
  have hn : n.toNat < sheet.pages := by rwa [h.pages]
  have hfree : sheet.free? file.slotCount = some (n.toNat, slot) := by
    rw [Sheet.free?_eq_some_iff]
    refine ⟨⟨hn, by rwa [← hcoherent.length_rowsAt hfile n]⟩, ?_, ?_⟩
    · rw [h.cells, if_pos hn, UInt32.ofNat_toNat, hnone]
    · rintro ⟨page, other⟩ hpage hother (hlt | ⟨heq, hlt⟩)
      · exact h.taken hcoherent hfile hsmall hfull hpage hlt hother
      · dsimp only at heq hlt
        rw [heq, h.cells, if_pos hn, UInt32.ofNat_toNat]
        exact hbefore other hlt
  rw [Sheet.insert, hfree]
  apply h.rowSet hfile hsmall hset hcounted hslot
  intro place
  exact Assoc.get?_insert _ _ _ _

theorem Shows.insertedBehind {db db' : Database} {file : TableFile} {sheet : Sheet}
    (h : Shows db file sheet) (hcoherent : db.Coherent)
    (hfile : db.catalog.file file.id = .ok file) (hsmall : file.pageTotal db.volume < UInt32.size)
    {row : List Field} {n : PageNo} (hlast : n.toNat = file.pageTotal db.volume)
    (hfull : ∀ m : PageNo, 0 ≤ m.toNat → m.toNat < n.toNat →
      (db.rowsAt file m).findIdx? Option.isNone = none)
    (hpages : file.pageTotal db'.volume = file.pageTotal db.volume + 1)
    (hrows : ∀ m, db'.rowsAt file m = if (⟨file.id, m⟩ : PageId) = ⟨file.id, n⟩ then
      (List.replicate file.slotCount none).set 0 (some row) else db.rowsAt file m) :
    Shows db' file (sheet.insert file.slotCount row) := by
  rw [Sheet.insert, h.free?_eq_none hcoherent hfile hsmall (hlast ▸ hfull)]
  constructor
  case pages => rw [hpages, h.pages]
  case cells =>
    intro page slot
    dsimp only
    rw [Assoc.get?_insert, h.cells, hrows]
    rcases Nat.lt_trichotomy page sheet.pages with hlt | rfl | hgt
    · rw [if_neg fun heq => Nat.ne_of_lt hlt (congrArg Prod.fst heq), if_pos hlt,
        if_pos (Nat.lt_succ_of_lt hlt), if_neg]
      intro hid
      have hnumber : UInt32.ofNat page = n := congrArg PageId.number hid
      rw [← hnumber, UInt32.toNat_ofNat_of_lt' (Nat.lt_trans (h.pages ▸ hlt) hsmall), ← h.pages] at hlast
      exact Nat.ne_of_lt hlt hlast
    · have hnumber : UInt32.ofNat sheet.pages = n := by
        rw [h.pages, ← hlast, UInt32.ofNat_toNat]
      rw [if_neg (Nat.lt_irrefl _), if_pos (Nat.lt_succ_self _), hnumber,
        if_pos (rfl : (⟨file.id, n⟩ : PageId) = ⟨file.id, n⟩), List.getElem?_set]
      cases slot with
      | zero =>
        rw [if_pos rfl, if_pos rfl, if_pos (by rw [List.length_replicate]; exact file.slotCount_pos)]
        rfl
      | succ slot =>
        rw [if_neg (by simp), if_neg (Nat.zero_ne_add_one slot), List.getElem?_replicate]
        split <;> rfl
    · rw [if_neg fun heq => Nat.ne_of_gt hgt (congrArg Prod.fst heq), if_neg (Nat.not_lt_of_lt hgt),
        if_neg (Nat.not_lt_of_le hgt)]

theorem Shows.inserted {db db' : Database} {file : TableFile} {sheet : Sheet}
    (h : Shows db file sheet) (hcoherent : db.Coherent)
    (hfile : db.catalog.file file.id = .ok file) (hsmall : file.pageTotal db.volume < UInt32.size)
    {row : List Field} (hinserted : Inserted db db' file 0 row) :
    Shows db' file (sheet.insert file.slotCount row) := by
  cases hinserted with
  | free n slot _ hcounted hfirst hfull hset =>
    exact h.insertedFree hcoherent hfile hsmall hcounted hfirst hfull hset
  | behind n hlast _ hfull _ hpages hrows =>
    have htotal := hpages file hfile
    rw [if_pos rfl] at htotal
    exact h.insertedBehind hcoherent hfile hsmall hlast hfull htotal (hrows file hfile)

/-- The call does to the tables what it does to the sheets, and it fails where it is refused. -/
structure Simulated (call : Call) (db : Database) (sheets : Sheets) : Prop where
  ready : (call.leaves db).Ready
  tables : SameTables db (call.leaves db)
  shown : Matches (call.leaves db) ((call.onSheets db.catalog sheets).getD sheets)
  succeeds : call.Succeeds db ↔ (call.onSheets db.catalog sheets).isSome = true

theorem not_succeeds_of_error {call : Call} {db db' : Database} {e : Fault}
    (h : call.perform db = .error e db') : ¬ call.Succeeds db := by
  rintro ⟨other, hok⟩
  rw [h] at hok
  cases hok

theorem simulated_of_success (call : Call) {db db' : Database} {sheets sheets' : Sheets}
    (hsheets : call.onSheets db.catalog sheets = some sheets') (hok : call.perform db = .ok () db')
    (hready : db'.Ready) (htables : SameTables db db') (hm : Matches db' sheets') :
    Simulated call db sheets := by
  have hleaves : call.leaves db = db' := after_of_ok hok
  constructor
  case ready => rwa [hleaves]
  case tables => rwa [hleaves]
  case shown => rwa [hleaves, hsheets]
  case succeeds =>
    rw [hsheets]
    exact ⟨fun _ => rfl, fun _ => ⟨db', hok⟩⟩

theorem Ready.simulated_of_pages {db db' : Database} (h : db.Ready) {sheets : Sheets}
    (hm : Matches db sheets) {call : Call} (hsheets : call.onSheets db.catalog sheets = some sheets)
    (hpages : ReflTransGen Paging db (call.leaves db)) (hok : call.perform db = .ok () db') :
    Simulated call db sheets := by
  rw [Call.leaves, after_of_ok hok] at hpages
  obtain ⟨hready, hsame⟩ := h.pages hpages
  exact simulated_of_success call hsheets hok hready hsame.tables (hm.of_sameRows hsame)

theorem simulated_of_refusal (call : Call) {db db' : Database} {sheets : Sheets}
    (hm : Matches db sheets) (hsheets : call.onSheets db.catalog sheets = none)
    {e : Fault} (herror : call.perform db = .error e db') (hready : db'.Ready)
    (hsame : SameRows db db') : Simulated call db sheets := by
  have hleaves : call.leaves db = db' := after_of_error herror
  constructor
  case ready => rwa [hleaves]
  case tables =>
    rw [hleaves]
    exact hsame.tables
  case shown =>
    rw [hsheets, hleaves]
    exact hm.of_sameRows hsame
  case succeeds =>
    rw [hsheets]
    exact ⟨fun hok => absurd hok (not_succeeds_of_error herror), fun hsome => by cases hsome⟩

theorem Ready.simulated_fetch {db : Database} (h : db.Ready) (hsmall : db.Small) {sheets : Sheets}
    (hm : Matches db sheets) (id : PageId) : Simulated (.fetch id) db sheets := by
  have hpages := (Call.fetch id).leaves_pages trivial h.coherent
  have hperform : (Call.fetch id).perform db = unanswered (fetch id db) := ignored_eq _ db
  cases hfetch : fetch id db with
  | ok frame db' =>
    rw [hfetch] at hperform
    apply h.simulated_of_pages hm _ hpages hperform
    obtain ⟨hsteps, _, file, hsound, hfile, hid, _⟩ := h.coherent.fetch_shows hfetch
    have hcounted := hsound.counted
    rw [(h.coherent.pages hsteps).2.pages file hfile, ← (hm file hfile).pages, hid] at hcounted
    rw [hid] at hfile
    simp only [Call.onSheets, hfile, hcounted, if_true]
  | error e db' =>
    rw [hfetch] at hperform
    rw [Call.leaves, after_of_error hperform] at hpages
    obtain ⟨hready, hsame⟩ := h.pages hpages
    apply simulated_of_refusal (.fetch id) hm _ hperform hready hsame
    -- A page that the sheets have could be fetched.
    cases hfile : db.catalog.file id.table with
    | error _ => simp only [Call.onSheets, hfile]
    | ok file =>
      have hid := h.coherent.named _ _ hfile
      simp only [Call.onSheets, hfile, ite_eq_right_iff, reduceCtorEq, imp_false]
      intro hlt
      rw [← hid, (hm file (by rwa [hid])).pages] at hlt
      have hcheck := TableFile.checkPage_of_counted (hsmall _ _ hfile) hlt
      rw [hid] at hcheck
      obtain ⟨frame, other, hok⟩ := h.fetch_ok hcheck hfile
      rw [hfetch] at hok
      cases hok

theorem Inserted.others {db db' : Database} {file : TableFile} {page : Nat} {row : List Field}
    (h : Inserted db db' file page row) :
    SameTables db db' ∧ ∀ other, db.catalog.file other.id = .ok other → other.id ≠ file.id →
      other.pageTotal db'.volume = other.pageTotal db.volume ∧
        ∀ n, db'.rowsAt other n = db.rowsAt other n := by
  have hdistinct {other : TableFile} (hid : other.id ≠ file.id) (m n : PageNo) :
      (⟨other.id, m⟩ : PageId) ≠ ⟨file.id, n⟩ := fun h => hid (congrArg PageId.table h)
  cases h with
  | free n slot _ _ _ _ hset =>
    refine ⟨hset.tables, fun other hother hid => ⟨hset.pages other hother, fun m => ?_⟩⟩
    rw [hset.rows other hother, if_neg (hdistinct hid m n)]
  | behind n _ _ _ htables hpages hrows =>
    refine ⟨htables, fun other hother hid => ⟨?_, fun m => ?_⟩⟩
    · rw [hpages other hother, if_neg hid]
    · rw [hrows other hother, if_neg (hdistinct hid m n)]

theorem Inserted.small {db db' : Database} (h : db.Coherent) (hsmall : db.Small) {file : TableFile}
    (hfile : db.catalog.file file.id = .ok file) {page : Nat} {row : List Field}
    (hinserted : Inserted db db' file page row) : db'.Small := by
  obtain ⟨htables, hothers⟩ := hinserted.others
  intro table other hother
  rw [htables.catalog] at hother
  have hregistered := h.registered hother
  by_cases hid : other.id = file.id
  · cases h.file_eq hfile hregistered hid
    cases hinserted with
    | free n slot _ _ _ _ hset =>
      rw [hset.pages file hfile]
      exact hsmall _ _ hother
    | behind n hlast hnumbered _ _ hpages _ =>
      rwa [hpages file hfile, if_pos rfl, ← hlast]
  · rw [(hothers other hregistered hid).1]
    exact hsmall _ _ hother

theorem Matches.inserted {db db' : Database} {sheets : Sheets} (hm : Matches db sheets)
    (h : db.Coherent) {file : TableFile} (hfile : db.catalog.file file.id = .ok file)
    (hsmall : file.pageTotal db.volume < UInt32.size) {row : List Field}
    (hinserted : Inserted db db' file 0 row) :
    Matches db' (sheets.put file.id ((sheets file.id).insert file.slotCount row)) := by
  obtain ⟨htables, hothers⟩ := hinserted.others
  apply hm.update htables.catalog hothers
  intro other hother hid
  cases h.file_eq hfile hother hid
  exact (hm file hfile).inserted h hfile hsmall hinserted

theorem Ready.simulated_insert {db : Database} (h : db.Ready) (hsmall : db.Small) {sheets : Sheets}
    (hm : Matches db sheets) (txn : TransactionId) (table : TableId) {t : Tuple} (hvalid : t.Valid)
    (hafter : ((Call.insert txn table t).leaves db).Small) :
    Simulated (.insert txn table t) db sheets := by
  cases hfile : db.catalog.file table with
  | error e =>
    apply simulated_of_refusal (.insert txn table t) hm _ (insertTuple_of_missing txn t hfile) h (.refl db)
    simp only [Call.onSheets, hfile]
  | ok file =>
    have hperform : (Call.insert txn table t).perform db = _ := insertTuple_eq txn t hfile
    by_cases hagrees : t.schema.Agrees file.schema
    · rw [if_pos hagrees] at hperform
      have hid := h.coherent.named _ _ hfile
      have hregistered := h.coherent.registered hfile
      have htotal := TableFile.numPages_toNat (hsmall _ _ hfile)
      have hcatalog : ((Call.insert txn table t).leaves db).catalog = db.catalog :=
        (inOrder_leaves _ h.coherent.inOrder).2.catalog
      have hend : file.pageTotal (after (insertAmong file txn t 0
          (file.numPages db.volume).toNat) db).volume < UInt32.size := by
        rw [← after_unanswered hperform]
        apply hafter table
        rw [hcatalog, hfile]
      rcases h.insertAmong_cases txn hvalid hagrees _ 0 hregistered ((Nat.zero_add _).trans htotal)
        (hsmall _ _ hfile) with
        ⟨frames, db', hinsert, hready, hinserted⟩ | ⟨e, db', hinsert, _, hpages, hlimit⟩
      · rw [hinsert] at hperform
        have hsheets : (Call.insert txn table t).onSheets db.catalog sheets =
            some (Sheets.put sheets table ((sheets table).insert file.slotCount t.fields)) := by
          simp only [Call.onSheets, hfile, hagrees, if_true]
        apply simulated_of_success (.insert txn table t) hsheets hperform hready hinserted.others.1
        rw [← hid]
        exact hm.inserted h.coherent hregistered (hsmall _ _ hfile) hinserted
      · rw [after_of_error hinsert] at hend
        omega
    · rw [if_neg hagrees] at hperform
      apply simulated_of_refusal (.insert txn table t) hm _ hperform h (.refl db)
      simp only [Call.onSheets, hfile, hagrees, if_false]

theorem Matches.cell {db : Database} {sheets : Sheets} (hm : Matches db sheets) (h : db.Coherent)
    {record : RecordId} {file : TableFile} (hfile : db.catalog.file record.page.table = .ok file) :
    (sheets record.page.table).cells.get? (record.page.number.toNat, record.slot.toNat) =
      if record.page.number.toNat < file.pageTotal db.volume then
        (db.rowsAt file record.page.number)[record.slot.toNat]?.join
      else none := by
  have hid := h.named _ _ hfile
  have hshows := hm file (h.registered hfile)
  rw [← hid, hshows.cells, hshows.pages, UInt32.ofNat_toNat]

theorem Matches.erase {db db' : Database} {sheets : Sheets} (hm : Matches db sheets) (h : db.Coherent)
    {record : RecordId} {file : TableFile} (hfile : db.catalog.file record.page.table = .ok file)
    (hsmall : file.pageTotal db.volume < UInt32.size)
    (hn : record.page.number.toNat < file.pageTotal db.volume)
    (hslot : record.slot.toNat < (db.rowsAt file record.page.number).length)
    (hset : RowSet db db' file record.page.number record.slot.toNat none) :
    Matches db' (Sheets.put sheets record.page.table ((sheets record.page.table).delete
      (record.page.number.toNat, record.slot.toNat))) := by
  have hid := h.named _ _ hfile
  have hregistered := h.registered hfile
  have hshows := hm file hregistered
  rw [hid] at hshows
  apply hm.update hset.tables.catalog
  · intro other hother hne
    refine ⟨hset.pages other hother, fun m => ?_⟩
    rw [hset.rows other hother, if_neg]
    intro heq
    exact hne ((congrArg PageId.table heq).trans hid)
  · intro other hother hsameId
    cases h.file_eq hregistered hother (hsameId.trans hid.symm)
    apply hshows.rowSet hregistered hsmall hset hn hslot
    intro place
    exact Assoc.get?_erase _ _ _

theorem onSheets_delete_of_empty {catalog : Catalog} {sheets : Sheets} (txn : TransactionId) {t : Tuple}
    {record : RecordId} (hrecord : t.record = some record)
    (hempty : (sheets record.page.table).cells.get?
      (record.page.number.toNat, record.slot.toNat) = none) :
    (Call.delete txn t).onSheets catalog sheets = none := by
  simp only [Call.onSheets, hrecord, Assoc.contains, hempty, Option.isSome_none, Bool.false_eq_true,
    if_false]
  cases catalog.file record.page.table <;> rfl

theorem onSheets_delete_of_row {catalog : Catalog} {sheets : Sheets} (txn : TransactionId) {t : Tuple}
    {record : RecordId} {file : TableFile} {row : List Field} (hrecord : t.record = some record)
    (hfile : catalog.file record.page.table = .ok file)
    (hrow : (sheets record.page.table).cells.get?
      (record.page.number.toNat, record.slot.toNat) = some row) :
    (Call.delete txn t).onSheets catalog sheets =
      some (Sheets.put sheets record.page.table ((sheets record.page.table).delete
        (record.page.number.toNat, record.slot.toNat))) := by
  simp only [Call.onSheets, hrecord, hfile, Assoc.contains, hrow, Option.isSome_some, if_true]

theorem Ready.simulated_delete {db : Database} (h : db.Ready) (hsmall : db.Small) {sheets : Sheets}
    (hm : Matches db sheets) (txn : TransactionId) (t : Tuple) :
    Simulated (.delete txn t) db sheets := by
  cases hrecord : t.record with
  | none =>
    apply simulated_of_refusal (.delete txn t) hm _ (deleteTuple_of_noRecord txn hrecord db) h (.refl db)
    simp only [Call.onSheets, hrecord]
  | some record =>
    cases hfile : db.catalog.file record.page.table with
    | error e =>
      apply simulated_of_refusal (.delete txn t) hm _ (deleteTuple_of_missing txn hrecord hfile) h (.refl db)
      simp only [Call.onSheets, hrecord, hfile]
    | ok file =>
      have hcell := hm.cell h.coherent hfile
      have hperform : (Call.delete txn t).perform db = _ := deleteTuple_eq txn hrecord hfile
      by_cases hn : record.page.number.toNat < file.pageTotal db.volume
      · have hcheck := TableFile.checkPage_of_counted (hsmall _ _ hfile) hn
        rw [h.coherent.named _ _ hfile] at hcheck
        rw [if_pos hn] at hcell
        rw [hcheck] at hperform
        rcases h.deleteAt hfile hcheck hrecord txn with
          ⟨⟨row, hrow⟩, frame, db', hupdate, hready, hset⟩ | ⟨hnone, e, db', hupdate, hready, hsame⟩
        · rw [hrow] at hcell
          rw [hupdate] at hperform
          have hslot := (List.getElem?_eq_some_iff.mp hrow).1
          exact simulated_of_success (.delete txn t) (onSheets_delete_of_row txn hrecord hfile hcell)
            hperform hready hset.tables (hm.erase h.coherent hfile (hsmall _ _ hfile) hn hslot hset)
        · have hempty := Classical.not_not.mp (mt Option.join_ne_none'.mp hnone)
          rw [hempty] at hcell
          rw [hupdate] at hperform
          exact simulated_of_refusal (.delete txn t) hm (onSheets_delete_of_empty txn hrecord hcell)
            hperform hready hsame
      · rw [if_neg hn] at hcell
        cases hcheck : file.checkPage db.volume record.page with
        | error e =>
          rw [hcheck] at hperform
          exact simulated_of_refusal (.delete txn t) hm (onSheets_delete_of_empty txn hrecord hcell)
            hperform h (.refl db)
        | ok _ => exact absurd (TableFile.number_lt_of_checkPage hcheck).2 hn

end Database

/-- The call inserts valid tuples, deletes, reads, writes back or commits. -/
def Call.Plain : Call → Prop
  | .insert _ _ t => t.Valid
  | .update _ _ _ | .discard _ => False
  | .complete _ commit => commit = true
  | .fetch _ | .delete _ _ | .flushPage _ | .flushTransaction _ | .flushAll | .flushList _ => True

namespace Database

theorem Ready.simulated {db : Database} (h : db.Ready) (hsmall : db.Small) {sheets : Sheets}
    (hm : Matches db sheets) {call : Call} (hcall : call.Plain)
    (hafter : (call.leaves db).Small) : Simulated call db sheets := by
  have hwrite {ids : List PageId} (hpages : call.OnlyPages)
      (hsheets : call.onSheets db.catalog sheets = some sheets)
      (hperform : call.perform db = writeAll ids db) : Simulated call db sheets := by
    obtain ⟨db', hok⟩ := h.writeAll_ok ids
    exact h.simulated_of_pages hm hsheets (call.leaves_pages hpages h.coherent) (hperform.trans hok)
  cases call with
  | fetch id => exact h.simulated_fetch hsmall hm id
  | insert txn table t => exact h.simulated_insert hsmall hm txn table hcall hafter
  | delete txn t => exact h.simulated_delete hsmall hm txn t
  | update txn id edit => exact hcall.elim
  | flushPage id =>
    obtain ⟨wrote, db', hback⟩ := h.writeBack_ok id
    have hflush : Database.flushPage id db = .ok (db.pool.isCached id) db' := by
      rw [flushPage_eq, hback]
    have hperform : (Call.flushPage id).perform db = _ := ignored_eq _ db
    rw [hflush] at hperform
    exact h.simulated_of_pages hm rfl ((Call.flushPage id).leaves_pages trivial h.coherent) hperform
  | flushTransaction txn => exact hwrite trivial rfl rfl
  | flushAll => exact hwrite trivial rfl rfl
  | flushList ids => exact hwrite trivial rfl rfl
  | discard id => exact hcall.elim
  | complete txn commit =>
    cases hcall
    exact hwrite rfl rfl rfl

theorem Ready.simulated_run {calls : List Call} (hcalls : ∀ call ∈ calls, call.Plain) {db : Database}
    (h : db.Ready) (hsmall : StaysSmall calls db) {sheets : Sheets} (hm : Matches db sheets) :
    (run calls db).Ready ∧ SameTables db (run calls db) ∧
      Matches (run calls db) (runSheets db.catalog calls sheets) := by
  induction calls generalizing db sheets with
  | nil => exact ⟨h, .refl db, hm⟩
  | cons call calls ih =>
    have hstep := h.simulated hsmall.1 hm (hcalls call List.mem_cons_self) hsmall.2.first
    obtain ⟨hready, htables, hmatches⟩ :=
      ih (fun other hmem => hcalls other (List.mem_cons_of_mem _ hmem)) hstep.ready hsmall.2 hstep.shown
    rw [hstep.tables.catalog] at hmatches
    exact ⟨hready, hstep.tables.trans htables, hmatches⟩

/-- To their users the tables are the sheets. -/
structure LooksLike (db : Database) (sheets : Sheets) : Prop where
  pages : ∀ file, db.catalog.file file.id = .ok file →
    (file.numPages db.volume).toNat = (sheets file.id).pages
  /-- A page has the rows of its cells, and there is no other page. -/
  rows : ∀ file, db.catalog.file file.id = .ok file → ∀ n : PageNo,
    if n.toNat < (sheets file.id).pages then
      ∃ page, db.page? ⟨file.id, n⟩ = some page ∧ page.numSlots = file.slotCount ∧
        ∀ slot, (page.tuple? slot).map Tuple.fields = (sheets file.id).cells.get? (n.toNat, slot)
    else db.page? ⟨file.id, n⟩ = none
  /-- There are no cells but those of the pages' slots. -/
  bounded : ∀ file, db.catalog.file file.id = .ok file → ∀ page slot row,
    (sheets file.id).cells.get? (page, slot) = some row →
      page < (sheets file.id).pages ∧ slot < file.slotCount
  /-- A fetch answers the page with these rows. -/
  answers : ∀ id frame db', fetch id db = .ok frame db' → db.page? id = some frame.page
  /-- A call fails exactly where it is refused. -/
  succeeds : ∀ call : Call, call.Plain → (call.leaves db).Small →
    (call.Succeeds db ↔ (call.onSheets db.catalog sheets).isSome = true)

theorem Ready.looksLike {db : Database} (h : db.Ready) (hsmall : db.Small) {sheets : Sheets}
    (hm : Matches db sheets) : LooksLike db sheets := by
  constructor
  case pages =>
    intro file hfile
    rw [TableFile.numPages_toNat (hsmall _ _ hfile), (hm file hfile).pages]
  case rows =>
    intro file hfile n
    have hshows := hm file hfile
    split
    · next hn =>
      obtain ⟨page, hpage, _, hformed, hrows⟩ :=
        h.coherent.page?_eq_some hfile (hsmall _ _ hfile) (by rwa [← hshows.pages])
      refine ⟨page, hpage, hformed.slots, fun slot => ?_⟩
      rw [Page.map_fields_tuple?, hrows, hshows.cells, if_pos hn, UInt32.ofNat_toNat]
    · next hn =>
      rw [hshows.pages] at hn
      exact h.coherent.page?_eq_none hfile (Nat.le_of_not_lt hn)
  case bounded =>
    intro file hfile page slot row hrow
    apply (hm file hfile).bounded h.coherent hfile (page, slot)
    rw [hrow]
    exact Option.some_ne_none row
  case answers => exact fun id frame db' hfetch => page?_of_fetch hfetch
  case succeeds => exact fun call hcall hafter => (h.simulated hsmall hm hcall hafter).succeeds

theorem Fresh.ready {db : Database} (h : db.Fresh) (hroom : 0 < db.pool.capacity)
    (hempty : ∀ file, db.catalog.file file.id = .ok file → db.volume.bytes file.pages.name = []) :
    db.Ready ∧ Matches db fun _ => {} := by
  have htotal (file : TableFile) (hfile : db.catalog.file file.id = .ok file) :
      file.pageTotal db.volume = 0 := TableFile.pageTotal_of_empty (hempty file hfile)
  refine ⟨⟨h.coherent, hroom, ?_⟩, ?_⟩
  · intro file hfile n hn
    rw [htotal file hfile] at hn
    exact absurd hn (Nat.not_lt_zero _)
  · intro file hfile
    exact ⟨(htotal file hfile).symm, fun page slot => rfl⟩

/-- From empty files, with any capacity but none, every run leaves tables that look like the sheets
after the same calls. -/
theorem looksLike_run {start : Database} (h : start.Fresh) (hroom : 0 < start.pool.capacity)
    (hempty : ∀ file, start.catalog.file file.id = .ok file → start.volume.bytes file.pages.name = [])
    {calls : List Call} (hcalls : ∀ call ∈ calls, call.Plain) (hsmall : StaysSmall calls start) :
    LooksLike (run calls start) (runSheets start.catalog calls fun _ => {}) := by
  obtain ⟨hready, hmatches⟩ := h.ready hroom hempty
  obtain ⟨hready', _, hmatches'⟩ := hready.simulated_run hcalls hsmall hmatches
  exact hready'.looksLike hsmall.last hmatches'

/-- With one frame and pages of one slot, the second insert evicts the first page and the third takes
the place that the delete has freed. -/
theorem looksLike_run_one_frame :
    let schema : Schema := ⟨[{ type := .integer }], List.cons_ne_nil _ _⟩
    let start := withTable { pageSize := 8, poolPages := 1 } "t" schema
    let calls : List Call := [.insert ⟨1⟩ (.file "t") ⟨schema, [.int 3], none⟩,
      .insert ⟨2⟩ (.file "t") ⟨schema, [.int 4], none⟩,
      .delete ⟨1⟩ ⟨schema, [.int 3], some ⟨⟨.file "t", 0⟩, 0⟩⟩, .complete ⟨1⟩ true,
      .insert ⟨2⟩ (.file "t") ⟨schema, [.int 5], none⟩]
    let sheets := runSheets start.catalog calls fun _ => {}
    start.Fresh ∧ 0 < start.pool.capacity ∧
      (∀ file, start.catalog.file file.id = .ok file → start.volume.bytes file.pages.name = []) ∧
      (∀ call ∈ calls, call.Plain) ∧ StaysSmall calls start ∧
      sheets (.file "t") = ⟨2, ⟨[((1, 0), [.int 4]), ((0, 0), [.int 5])]⟩⟩ ∧
      LooksLike (run calls start) sheets := by
  intro schema start calls sheets
  have hfresh : start.Fresh := fresh_withTable _ _ _
  have hroom : 0 < start.pool.capacity := by decide +kernel
  have hempty (file : TableFile) (_ : start.catalog.file file.id = .ok file) :
      start.volume.bytes file.pages.name = [] := bytes_withTable _ _ _ _
  have hcalls : ∀ call ∈ calls, call.Plain := by
    have hvalid (value : Int32) : (⟨schema, [.int value], none⟩ : Tuple).Valid := by
      simp [Tuple.Valid, schema, Schema.types, Field.fits]
    simp [calls, Call.Plain, hvalid]
  have hsmall : StaysSmall calls start := by decide +kernel
  exact ⟨hfresh, hroom, hempty, hcalls, hsmall, by decide +kernel,
    looksLike_run hfresh hroom hempty hcalls hsmall⟩

end Database
end RowStore
