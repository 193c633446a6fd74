import RowStore.Proofs.LoneTransactions
import RowStore.Proofs.PageImages
import RowStore.Proofs.Requests

/-!
# Pages that edits report

An insert looks through the pages of its file and may load, write back and drop pages on the way, and it
may append one. The page that it answers is nevertheless the one in the cache, marked by the transaction,
and it differs from what readers saw before in one slot; the contents of all other pages are as they were.
The same holds of a delete.
-/
namespace RowStore
open Relation

namespace Page

/-- The pages are the same but for one slot, which is in use in one of them only. -/
structure ChangedAt (old page : Page) (slot : Nat) : Prop where
  numSlots : page.numSlots = old.numSlots
  flipped : page.isSlotUsed slot = !old.isSlotUsed slot
  kept : ∀ other, other ≠ slot → old.SameRowAt page other

theorem Shaped.isSlotUsed_of_row {page : Page} (h : page.Shaped) {slot : Nat} {row : Option (List Field)}
    (hrow : page.rows[slot]? = some row) : page.isSlotUsed slot = row.isSome := by
  rw [Bool.eq_iff_iff, h.isSlotUsed_iff, hrow, Option.isSome_iff_exists]
  simp only [Option.some.injEq]

/-- A page with another row in one slot is changed there if one of the two rows is there and the other
is not. -/
theorem WellFormed.changedAt {file : TableFile} {old page : Page} (h : old.WellFormed file)
    (hpage : page.WellFormed file) (hid : old.id = page.id) {slot : Nat} {before row : Option (List Field)}
    (hbefore : old.rows[slot]? = some before) (hrows : page.rows = old.rows.set slot row)
    (hflip : row.isSome = !before.isSome) : old.ChangedAt page slot := by
  have hslot : slot < old.rows.length := (List.getElem?_eq_some_iff.mp hbefore).1
  constructor
  case numSlots => rw [h.slots, hpage.slots]
  case flipped =>
    have hafter : page.rows[slot]? = some row := by rw [hrows, List.getElem?_set_self hslot]
    rw [h.shaped.isSlotUsed_of_row hbefore, hpage.shaped.isSlotUsed_of_row hafter, hflip]
  case kept =>
    intro other hother
    apply h.shaped.sameRowAt hpage.shaped hid (congrArg Schema.types (h.schema.trans hpage.schema.symm))
    rw [hrows, List.getElem?_set_ne (Ne.symm hother)]

end Page

namespace Database
variable {db db' : Database}

/-- The page as readers see it, or an empty page where there is none yet. -/
def pageOrEmpty (db : Database) (file : TableFile) (n : PageNo) : Page :=
  (db.page? ⟨file.id, n⟩).getD (Page.empty ⟨file.id, n⟩ file.schema file.pageSize)

theorem Coherent.pageOrEmpty (h : db.Coherent) {file : TableFile} (hfile : db.catalog.file file.id = .ok file)
    (hsmall : file.pageTotal db.volume < UInt32.size) (n : PageNo) :
    (db.pageOrEmpty file n).id = ⟨file.id, n⟩ ∧ (db.pageOrEmpty file n).WellFormed file ∧
      (db.pageOrEmpty file n).rows = db.rowsAt file n := by
  by_cases hn : n.toNat < file.pageTotal db.volume
  · obtain ⟨page, hpage, hfound⟩ := h.page?_eq_some hfile hsmall hn
    rw [Database.pageOrEmpty, hpage, Option.getD_some]
    exact hfound
  · have hbehind := Nat.le_of_not_lt hn
    have hempty := Page.storable_empty ⟨file.id, n⟩ file.schema file.pageSize
    rw [Database.pageOrEmpty, h.page?_eq_none hfile hbehind, Option.getD_none]
    refine ⟨hempty.id, hempty.shaped.wellFormed rfl hempty.schema hempty.size, ?_⟩
    rw [h.rowsAt_behind hfile hbehind]
    exact List.map_replicate

/-- Readers see the same pages with the same rows, one page apart. -/
structure SameElsewhere (db db' : Database) (id : PageId) : Prop where
  tables : SameTables db db'
  counted : ∀ file, db.catalog.file file.id = .ok file → ∀ n, (⟨file.id, n⟩ : PageId) ≠ id →
    (n.toNat < file.pageTotal db'.volume ↔ n.toNat < file.pageTotal db.volume)
  rows : ∀ file, db.catalog.file file.id = .ok file → ∀ n, (⟨file.id, n⟩ : PageId) ≠ id →
    db'.rowsAt file n = db.rowsAt file n

theorem SameRows.elsewhere (h : SameRows db db') (id : PageId) : SameElsewhere db db' id := by
  constructor
  case tables => exact h.tables
  case counted => exact fun file hfile n _ => by rw [h.pages file hfile]
  case rows => exact fun file hfile n _ => h.rows file hfile n

theorem SameElsewhere.trans {a b c : Database} {id : PageId} (hab : SameElsewhere a b id)
    (hbc : SameElsewhere b c id) : SameElsewhere a c id := by
  have hthere {file : TableFile} (hfile : a.catalog.file file.id = .ok file) :
      b.catalog.file file.id = .ok file := by rwa [hab.tables.catalog]
  constructor
  case tables => exact hab.tables.trans hbc.tables
  case counted =>
    intro file hfile n hn
    exact (hbc.counted file (hthere hfile) n hn).trans (hab.counted file hfile n hn)
  case rows =>
    intro file hfile n hn
    exact (hbc.rows file (hthere hfile) n hn).trans (hab.rows file hfile n hn)

theorem sameElsewhere_replacing {id : PageId} {old : Page} (hcached : db.pool.page? id = some old)
    (page : Page) : SameElsewhere db (db.replacing id page) id := by
  constructor
  case tables => exact ⟨rfl, rfl, rfl⟩
  case counted => exact fun _ _ _ _ => Iff.rfl
  case rows =>
    intro file _ n hn
    rw [rowsAt_replacing hcached, if_neg hn]

theorem Coherent.rowsAt_appending (h : db.Coherent) {file : TableFile} {n : PageNo}
    (hfile : db.catalog.file file.id = .ok file) (hlast : n.toNat = file.pageTotal db.volume) :
    (db.appending file n).rowsAt file n = db.rowsAt file n := by
  rw [Database.rowsAt_appending h hfile hlast hfile, if_pos rfl,
    h.rowsAt_behind hfile (Nat.le_of_eq hlast.symm)]

theorem Coherent.sameElsewhere_appending (h : db.Coherent) {file : TableFile} {n : PageNo}
    (hfile : db.catalog.file file.id = .ok file) (hlast : n.toNat = file.pageTotal db.volume) :
    SameElsewhere db (db.appending file n) ⟨file.id, n⟩ := by
  constructor
  case tables => exact sameTables_storing db file n _
  case counted =>
    intro other hother m hm
    rw [pageTotal_appending h hfile hlast hother]
    split
    · next hid =>
      cases h.file_eq hfile hother hid
      have hnumber : m.toNat ≠ n.toNat := fun heq => hm (by rw [UInt32.toNat_inj.mp heq])
      omega
    · exact Iff.rfl
  case rows =>
    intro other hother m hm
    rw [Database.rowsAt_appending h hfile hlast hother, if_neg hm]

theorem Coherent.page?_of_unregistered (h : db.Coherent) {id : PageId} {e : StoreError}
    (hfile : db.catalog.file id.table = .error e) : db.page? id = none := by
  cases hcached : db.pool.page? id with
  | some page =>
    obtain ⟨file, hsound⟩ := h.cached id page hcached
    have hregistered := hsound.registered
    rw [hfile] at hregistered
    cases hregistered
  | none => simp only [page?, hcached, Option.none_or, pageOnDisk?, hfile]

theorem SameElsewhere.rel_page? {id other : PageId} (h : SameElsewhere db db' id) (hdb : db.Coherent)
    (hdb' : db'.Coherent) (hsmall : db.Small) (hsmall' : db'.Small) (hother : other ≠ id) :
    Option.Rel Page.SameContents (db.page? other) (db'.page? other) := by
  cases hregistered : db.catalog.file other.table with
  | error e =>
    have hregistered' : db'.catalog.file other.table = .error e := by rwa [h.tables.catalog]
    rw [hdb.page?_of_unregistered hregistered, hdb'.page?_of_unregistered hregistered']
    exact .none
  | ok file =>
    obtain ⟨table, n⟩ := other
    cases hdb.named table file hregistered
    have hregistered' : db'.catalog.file file.id = .ok file := by rwa [h.tables.catalog]
    have hcounted := h.counted file hregistered n hother
    by_cases hn : n.toNat < file.pageTotal db.volume
    · obtain ⟨page, hpage, hid, hformed, hrows⟩ := hdb.page?_eq_some hregistered (hsmall _ _ hregistered) hn
      obtain ⟨page', hpage', hid', hformed', hrows'⟩ :=
        hdb'.page?_eq_some hregistered' (hsmall' _ _ hregistered') (hcounted.mpr hn)
      rw [hpage, hpage']
      apply Option.Rel.some
      apply hformed.sameContents hformed' (hid.trans hid'.symm)
      rw [hrows, hrows', h.rows file hregistered n hother]
    · have hn' := Nat.le_of_not_lt fun hn' => hn (hcounted.mp hn')
      rw [hdb.page?_eq_none hregistered (Nat.le_of_not_lt hn), hdb'.page?_eq_none hregistered' hn']
      exact .none

/-- The frame has the page, marked by the transaction, with another row in the slot; readers see the
other pages with the rows that they had. -/
structure Updated (db db' : Database) (file : TableFile) (n : PageNo) (txn : TransactionId) (frame : Frame)
    (slot : Nat) (row : Option (List Field)) : Prop where
  coherent : db'.Coherent
  small : db'.Small
  cached : db'.pool.frames.get? ⟨file.id, n⟩ = some frame
  marked : frame.page.dirtiedBy = some txn
  rows : frame.page.rows = (db.rowsAt file n).set slot row
  elsewhere : SameElsewhere db db' ⟨file.id, n⟩

section
variable {file : TableFile} {n : PageNo} {txn : TransactionId} {frame : Frame}

theorem Updated.after {middle : Database} {slot : Nat} {row : Option (List Field)}
    (h : Updated middle db' file n txn frame slot row) (hrows : middle.rowsAt file n = db.rowsAt file n)
    (hsame : SameElsewhere db middle ⟨file.id, n⟩) : Updated db db' file n txn frame slot row :=
  ⟨h.coherent, h.small, h.cached, h.marked, h.rows.trans (by rw [hrows]), hsame.trans h.elsewhere⟩

theorem Coherent.update_ok (h : db.Coherent) (hsmall : db.Small) (hfile : db.catalog.file file.id = .ok file)
    {edit : PageEdit Unit} (hupdate : update txn ⟨file.id, n⟩ edit db = .ok frame db') :
    ∃ middle old page, middle.Coherent ∧ Sound middle ⟨file.id, n⟩ old file ∧
      middle.pool.page? ⟨file.id, n⟩ = some old ∧ old.rows = db.rowsAt file n ∧ edit old = .ok () page ∧
      frame.page = page.markDirty txn ∧ db' = middle.replacing ⟨file.id, n⟩ (page.markDirty txn) ∧
      ∀ slot row, page.rows = old.rows.set slot row → db'.Coherent →
        Updated db db' file n txn frame slot row := by
  cases hfetch : fetch ⟨file.id, n⟩ db with
  | error e middle =>
    rw [update_of_fetch_error hfetch] at hupdate
    cases hupdate
  | ok found middle =>
    obtain ⟨hpages, hframe, home, hsound, hhome, hid, hold⟩ := h.fetch_shows hfetch
    cases h.file_eq hfile hhome hid
    obtain ⟨hmiddle, hsame⟩ := h.pages hpages
    have hcached : middle.pool.page? ⟨file.id, n⟩ = some found.page := by
      rw [Pool.page?, hframe]
      rfl
    cases hedit : edit found.page with
    | error e page =>
      rw [update_of_edit_error hfetch hedit] at hupdate
      cases hupdate
    | ok _ page =>
      rw [update_of_edit_ok hfetch hedit] at hupdate
      cases hupdate
      refine ⟨middle, found.page, page, hmiddle, hsound, hcached, hold, hedit, rfl, rfl, ?_⟩
      intro slot row hrows hcoherent
      have hsmallMiddle : middle.Small := hsmall.of_sameRows h hsame
      constructor
      case coherent => exact hcoherent
      case small => exact hsmallMiddle
      case cached =>
        change (middle.pool.frames.modify _ _).get? _ = _
        rw [Assoc.get?_modify, if_pos rfl, hframe]
        rfl
      case marked => rfl
      case rows => rw [Page.rows_markDirty, hrows, hold]
      case elsewhere => exact (hsame.elsewhere _).trans (sameElsewhere_replacing hcached _)

theorem Coherent.updated_insert (h : db.Coherent) (hsmall : db.Small)
    (hfile : db.catalog.file file.id = .ok file) {t : Tuple} (ht : t.Complete)
    (hupdate : update txn ⟨file.id, n⟩ (insertEdit t) db = .ok frame db') :
    ∃ slot, (db.rowsAt file n)[slot]? = some none ∧
      frame.page.tuple? slot = some { t with record := some (frame.page.record slot) } ∧
      Updated db db' file n txn frame slot (some t.fields) := by
  obtain ⟨middle, old, page, hmiddle, _, hcached, hold, hedit, hpage, rfl, hupdated⟩ :=
    h.update_ok hsmall hfile hupdate
  obtain ⟨hagrees, slot, hfree, rfl⟩ := Page.insertEdit_eq_ok.mp hedit
  have hinside := ((old.freeSlot?_eq_some_iff slot).mp hfree).1
  refine ⟨slot, ?_, ?_, hupdated slot _ (Page.rows_fill old slot t) ?_⟩
  · rw [Page.freeSlot?_eq, hold] at hfree
    obtain ⟨hlt, hnone, _⟩ := List.findIdx?_eq_some_iff_getElem.mp hfree
    rw [List.getElem?_eq_getElem hlt, Option.isNone_iff_eq_none.mp hnone]
  · rw [hpage]
    exact (Page.tuple?_fill old hinside t slot).trans (if_pos rfl)
  · exact hmiddle.insert txn hcached hagrees ht hfree

theorem Coherent.updated_delete (h : db.Coherent) (hsmall : db.Small)
    (hfile : db.catalog.file file.id = .ok file) {t : Tuple}
    (hupdate : update txn ⟨file.id, n⟩ (Page.delete t) db = .ok frame db') :
    ∃ record row, t.record = some record ∧ (db.rowsAt file n)[record.slot.toNat]? = some (some row) ∧
      frame.page.tuple? record.slot.toNat = none ∧
      Updated db db' file n txn frame record.slot.toNat none := by
  obtain ⟨middle, old, page, hmiddle, hsound, hcached, hold, hedit, hpage, rfl, hupdated⟩ :=
    h.update_ok hsmall hfile hupdate
  obtain ⟨record, hrecord, _, hused, rfl⟩ := Page.delete_eq_ok.mp hedit
  obtain ⟨row, hrow⟩ := (hsound.wellFormed.shaped.isSlotUsed_iff _).mp hused
  refine ⟨record, row, hrecord, hold ▸ hrow, ?_, hupdated _ _ (Page.rows_free old _) ?_⟩
  · rw [hpage]
    exact (Page.tuple?_free old _ _).trans (if_pos rfl)
  · exact hmiddle.delete txn hcached hused

theorem Small.appending (h : db.Small) (hcoherent : db.Coherent)
    (hfile : db.catalog.file file.id = .ok file) (hlast : n.toNat = file.pageTotal db.volume)
    (hnext : n.toNat + 1 < UInt32.size) : (db.appending file n).Small := by
  intro table other hother
  change db.catalog.file table = .ok other at hother
  rw [pageTotal_appending hcoherent hfile hlast (hcoherent.registered hother)]
  split
  · next hid =>
    cases hcoherent.file_eq hfile (hcoherent.registered hother) hid
    rwa [← hlast]
  · exact h table other hother

theorem Coherent.updated_insertAmong {t : Tuple} (ht : t.Complete) {frames : List Frame} (left page : Nat)
    {db : Database} (h : db.Coherent) (hsmall : db.Small) (hfile : db.catalog.file file.id = .ok file)
    (hleft : page + left = file.pageTotal db.volume)
    (hinsert : insertAmong file txn t page left db = .ok frames db') :
    ∃ frame n slot, frames = [frame] ∧ (db.rowsAt file n)[slot]? = some none ∧
      frame.page.tuple? slot = some { t with record := some (frame.page.record slot) } ∧
      Updated db db' file n txn frame slot (some t.fields) := by
  induction left generalizing page db with
  | zero =>
    have hlast : (UInt32.ofNat page).toNat = file.pageTotal db.volume := by
      rw [UInt32.toNat_ofNat_of_lt' (by have := hsmall _ _ hfile; omega), ← hleft, Nat.add_zero]
    rw [insertAmong_zero] at hinsert
    obtain ⟨frame, rfl, hupdate⟩ := updateList_eq_ok hinsert
    have hnext : (UInt32.ofNat page).toNat + 1 < UInt32.size := by
      apply Nat.lt_of_not_le
      intro hlimit
      cases (h.update_appending hfile hlast hlimit txn (insertEdit t)).symm.trans hupdate
    have hrows := h.rowsAt_appending hfile hlast
    obtain ⟨slot, hfree, htuple, hupdated⟩ := (h.appending hfile hlast).updated_insert
      (hsmall.appending h hfile hlast hnext) hfile ht hupdate
    rw [hrows] at hfree
    exact ⟨frame, _, slot, rfl, hfree, htuple,
      hupdated.after hrows (h.sameElsewhere_appending hfile hlast)⟩
  | succ left ih =>
    rw [insertAmong_succ] at hinsert
    cases hfetch : fetch ⟨file.id, UInt32.ofNat page⟩ db with
    | error e middle =>
      rw [hfetch] at hinsert
      cases hinsert
    | ok found middle =>
      obtain ⟨hpages, _⟩ := h.fetch_shows hfetch
      obtain ⟨hmiddle, hsame⟩ := h.pages hpages
      have hregistered : middle.catalog.file file.id = .ok file := by rwa [hsame.tables.catalog]
      have hcounted := hsame.pages file hfile
      have hsmallMiddle := hsmall.of_sameRows h hsame
      suffices hlater : ∃ frame n slot, frames = [frame] ∧ (middle.rowsAt file n)[slot]? = some none ∧
          frame.page.tuple? slot = some { t with record := some (frame.page.record slot) } ∧
          Updated middle db' file n txn frame slot (some t.fields) by
        obtain ⟨frame, n, slot, hframes, hfree, htuple, hupdated⟩ := hlater
        have hrows := hsame.rows file hfile n
        exact ⟨frame, n, slot, hframes, hrows ▸ hfree, htuple, hupdated.after hrows (hsame.elsewhere _)⟩
      rw [hfetch] at hinsert
      dsimp only at hinsert
      split at hinsert
      · obtain ⟨frame, rfl, hupdate⟩ := updateList_eq_ok hinsert
        obtain ⟨slot, hfound⟩ := hmiddle.updated_insert hsmallMiddle hregistered ht hupdate
        exact ⟨frame, _, slot, rfl, hfound⟩
      · exact ih (page + 1) hmiddle hsmallMiddle hregistered (by omega) hinsert

/-- The frame has the cached page, marked by the transaction. It differs in one slot from the page that
readers saw, and readers see all other pages with the contents that they had. -/
structure Reports (db db' : Database) (file : TableFile) (txn : TransactionId) (frame : Frame)
    (slot : Nat) : Prop where
  home : frame.page.id.table = file.id
  cached : db'.pool.frames.get? frame.page.id = some frame
  marked : frame.page.dirtiedBy = some txn
  changed : (db.pageOrEmpty file frame.page.id.number).ChangedAt frame.page slot
  others : ∀ id, id ≠ frame.page.id → Option.Rel Page.SameContents (db.page? id) (db'.page? id)

theorem Updated.reports (h : db.Coherent) (hsmall : db.Small) (hfile : db.catalog.file file.id = .ok file)
    {slot : Nat} {row before : Option (List Field)} (hupdated : Updated db db' file n txn frame slot row)
    (hbefore : (db.rowsAt file n)[slot]? = some before) (hflip : row.isSome = !before.isSome) :
    frame.page.id = ⟨file.id, n⟩ ∧ Reports db db' file txn frame slot := by
  have hregistered : db'.catalog.file file.id = .ok file := by rwa [hupdated.elsewhere.tables.catalog]
  have hcached : db'.pool.page? ⟨file.id, n⟩ = some frame.page := by
    rw [Pool.page?, hupdated.cached]
    rfl
  have hsound := hupdated.coherent.sound_of_cached hregistered hcached
  have hid := hsound.identified
  obtain ⟨hplace, hformed, hrows⟩ := h.pageOrEmpty hfile (hsmall _ _ hfile) n
  refine ⟨hid, ?_⟩
  constructor
  case home => rw [hid]
  case cached => rw [hid, hupdated.cached]
  case marked => exact hupdated.marked
  case changed =>
    rw [hid]
    apply hformed.changedAt hsound.wellFormed (hplace.trans hid.symm) (hrows ▸ hbefore) _ hflip
    rw [hupdated.rows, hrows]
  case others =>
    rw [hid]
    exact fun other hother => hupdated.elsewhere.rel_page? h hupdated.coherent hsmall hupdated.small hother

theorem Coherent.insertInto_reports (h : db.Coherent) (hsmall : db.Small)
    (hfile : db.catalog.file file.id = .ok file) {t : Tuple} (ht : t.Complete) {frames : List Frame}
    (hinsert : insertInto file txn t db = .ok frames db') : ∃ frame slot, frames = [frame] ∧
      frame.page.tuple? slot = some { t with record := some (frame.page.record slot) } ∧
        Reports db db' file txn frame slot := by
  rw [insertInto_eq] at hinsert
  split at hinsert
  case isFalse hagrees => cases hinsert
  case isTrue hagrees =>
    have htotal : 0 + (file.numPages db.volume).toNat = file.pageTotal db.volume := by
      rw [Nat.zero_add, TableFile.numPages_toNat (hsmall _ _ hfile)]
    obtain ⟨frame, n, slot, hframes, hfree, htuple, hupdated⟩ :=
      h.updated_insertAmong ht _ 0 hsmall hfile htotal hinsert
    exact ⟨frame, slot, hframes, htuple, (hupdated.reports h hsmall hfile hfree rfl).2⟩

theorem Coherent.deleteFrom_reports (h : db.Coherent) (hsmall : db.Small)
    (hfile : db.catalog.file file.id = .ok file) {t : Tuple} {frames : List Frame}
    (hdelete : deleteFrom file txn t db = .ok frames db') : ∃ frame record, frames = [frame] ∧
      t.record = some record ∧ record.page = frame.page.id ∧
        frame.page.tuple? record.slot.toNat = none ∧ Reports db db' file txn frame record.slot.toNat := by
  cases hrecord : t.record with
  | none =>
    rw [deleteFrom, hrecord] at hdelete
    cases hdelete
  | some record =>
    rw [deleteFrom_eq file txn hrecord] at hdelete
    cases hcheck : file.checkPage db.volume record.page with
    | error e =>
      rw [hcheck] at hdelete
      cases hdelete
    | ok _ =>
      rw [hcheck] at hdelete
      have hhome := (TableFile.checkPage_eq_ok.mp hcheck).1
      have hplace : record.page = ⟨file.id, record.page.number⟩ := by rw [← hhome]
      obtain ⟨frame, hframes, hupdate⟩ := updateList_eq_ok hdelete
      rw [hplace] at hupdate
      obtain ⟨other, row, hother, hused, hfree, hupdated⟩ := h.updated_delete hsmall hfile hupdate
      cases hrecord.symm.trans hother
      obtain ⟨hid, hreports⟩ := hupdated.reports h hsmall hfile hused rfl
      exact ⟨frame, record, hframes, rfl, hplace.trans hid.symm, hfree, hreports⟩

end

/-- In every state of a run, an insert into a registered file that succeeds answers the one page that it
has changed: the cached and marked page, with the tuple in a slot that was free. A delete that succeeds
answers the page of the record, whose slot it has freed. All other pages have the contents that they had,
whatever was loaded, written back or dropped meanwhile. -/
theorem edit_reports_page {start : Database} (h : start.Fresh) {calls : List Call}
    (hcalls : ∀ call ∈ calls, call.EditsTuples) (hsmall : StaysSmall calls start) {file : TableFile}
    (hfile : (run calls start).catalog.file file.id = .ok file) (txn : TransactionId) {t : Tuple}
    (ht : t.Built) :
    let db := run calls start
    (∀ frames db', insertInto file txn t db = .ok frames db' → ∃ frame slot, frames = [frame] ∧
      frame.page.tuple? slot = some { t with record := some (frame.page.record slot) } ∧
        Reports db db' file txn frame slot) ∧
    ∀ frames db', deleteFrom file txn t db = .ok frames db' → ∃ frame record, frames = [frame] ∧
      t.record = some record ∧ record.page = frame.page.id ∧
        frame.page.tuple? record.slot.toNat = none ∧ Reports db db' file txn frame record.slot.toNat := by
  intro db
  have hcoherent : db.Coherent := coherent_run hcalls h.coherent hsmall
  exact ⟨fun _ _ hinsert => hcoherent.insertInto_reports hsmall.last hfile ht.complete hinsert,
    fun _ _ hdelete => hcoherent.deleteFrom_reports hsmall.last hfile hdelete⟩

/-- With one frame an insert loads the two full pages one after the other, each in the place of the other,
and appends a third. A delete on the first page drops the second, which is dirty. -/
theorem edit_reports_page_one_frame :
    let schema : Schema := ⟨[{ type := .integer }], List.cons_ne_nil _ _⟩
    let file : TableFile := ⟨0, ⟨"t", 8⟩, schema, by decide, by decide⟩
    let start := withTable { pageSize := 8, poolPages := 1 } "t" schema
    let calls : List Call := [.insert ⟨1⟩ (.file "t") ⟨schema, [.int 3], none⟩,
      .insert ⟨1⟩ (.file "t") ⟨schema, [.int 4], none⟩]
    let db := run calls start
    let stored : Tuple := ⟨schema, [.int 3], some ⟨⟨.file "t", 0⟩, 0⟩⟩
    start.Fresh ∧ (∀ call ∈ calls, call.EditsTuples) ∧ StaysSmall calls start ∧
      db.catalog.file file.id = .ok file ∧ stored.Built ∧
        db.pool.cachedPages = [⟨.file "t", 1⟩] ∧
          (∃ frame slot db', insertInto file ⟨2⟩ stored db = .ok [frame] db' ∧
            frame.page.id = ⟨.file "t", 2⟩ ∧ Reports db db' file ⟨2⟩ frame slot) ∧
            ∃ frame db', deleteFrom file ⟨2⟩ stored db = .ok [frame] db' ∧
              frame.page.id = ⟨.file "t", 0⟩ ∧ Reports db db' file ⟨2⟩ frame 0 := by
  intro schema file start calls db stored
  have hfresh : start.Fresh := fresh_withTable _ _ _
  have hcalls : ∀ call ∈ calls, call.EditsTuples := by
    simp [calls, schema, Call.EditsTuples, Tuple.built_integer]
  have hsmall : StaysSmall calls start := by decide +kernel
  have hfile : db.catalog.file file.id = .ok file := by decide +kernel
  have hbuilt : stored.Built := .moved (Tuple.built_integer 3) (some ⟨⟨.file "t", 0⟩, 0⟩)
  obtain ⟨hinserts, hdeletes⟩ := edit_reports_page hfresh hcalls hsmall hfile ⟨2⟩ hbuilt
  refine ⟨hfresh, hcalls, hsmall, hfile, hbuilt, by decide +kernel, ?_, ?_⟩
  · have hpages : (outcome (insertInto file ⟨2⟩ stored db)).map (List.map fun frame => frame.page.id) =
        .ok [⟨.file "t", 2⟩] := by decide +kernel
    obtain ⟨frames, hframes, hids⟩ := map_eq_ok.mp hpages
    obtain ⟨db', hinsert⟩ := exists_ok_of_outcome hframes
    obtain ⟨frame, slot, rfl, _, hreports⟩ := hinserts frames db' hinsert
    exact ⟨frame, slot, db', hinsert, List.head_eq_of_cons_eq hids, hreports⟩
  · have hpages : (outcome (deleteFrom file ⟨2⟩ stored db)).map (List.map fun frame => frame.page.id) =
        .ok [⟨.file "t", 0⟩] := by decide +kernel
    obtain ⟨frames, hframes, hids⟩ := map_eq_ok.mp hpages
    obtain ⟨db', hdelete⟩ := exists_ok_of_outcome hframes
    obtain ⟨frame, record, rfl, hrecord, _, _, hreports⟩ := hdeletes frames db' hdelete
    cases hrecord
    exact ⟨frame, db', hdelete, List.head_eq_of_cons_eq hids, hreports⟩

end Database
end RowStore
