import RowStore.Proofs.Reservations
import RowStore.Proofs.StalePages
import RowStore.Proofs.UpdateMarks

/-!
# Data behind failed inserts and deletes

A failed insert or delete has fetched pages, and may have reserved an empty one. Neither changes the rows
that are in a marked page or on disk, and neither marks a page. What readers see of a page is thus as it
was, unless the page was torn and has been dropped: then they see again what is on disk.
-/
namespace RowStore
open Relation

theorem Page.tuples_of_blank {page : Page} {count : Nat} (h : page.rows = List.replicate count none) :
    page.tuples = [] := by
  rw [List.eq_nil_iff_forall_not_mem]
  intro t ht
  obtain ⟨slot, hslot⟩ := mem_tuples_iff.mp ht
  have hfields := page.map_fields_tuple? slot
  rw [hslot, h, List.getElem?_replicate] at hfields
  split at hfields <;> cases hfields

namespace Database
variable {db db' : Database}

/-- Every cached page has the columns and the size of the file that is registered for its table. -/
structure Current (db : Database) : Prop where
  matched : db.Matched
  fits : ∀ id, db.Fits id

theorem current_iff : db.Current ↔ ∀ id page file, db.pool.page? id = some page →
    db.catalog.file id.table = .ok file →
      page.schema.Agrees file.schema ∧ page.size = file.pageSize := by
  constructor
  · intro h id page file hcached hfile
    exact ⟨h.matched id page file hcached hfile, h.fits id page file hcached hfile⟩
  · intro h
    constructor
    case matched => exact fun id page file hcached hfile => (h id page file hcached hfile).1
    case fits => exact fun id page file hcached hfile => (h id page file hcached hfile).2

theorem Current.missing_behind (h : db.Current) (horderly : db.Orderly) {file : TableFile}
    (hfile : db.catalog.file file.id = .ok file) {n : PageNo} (hn : file.pageTotal db.volume ≤ n.toNat) :
    db.pool.page? ⟨file.id, n⟩ = none := by
  cases hcached : db.pool.page? ⟨file.id, n⟩ with
  | none => rfl
  | some page =>
    have hsize := h.fits _ page file hcached hfile
    exact absurd ((horderly.cached _ page hcached).lt_pageTotal rfl hsize) (Nat.not_lt.mpr hn)

theorem Current.of_cached (h : db.Current) (hcatalog : db'.catalog = db.catalog)
    (hcached : ∀ id page, db'.pool.page? id = some page → ∃ old, db.pool.page? id = some old ∧
      page.schema = old.schema ∧ page.size = old.size) : db'.Current := by
  rw [current_iff] at h ⊢
  intro id page file hpage hfile
  obtain ⟨old, hold, hschema, hsize⟩ := hcached id page hpage
  rw [hcatalog] at hfile
  rw [hschema, hsize]
  exact h id old file hold hfile

theorem Current.turnover (h : db.Current) (hstep : Turnover db db') : db'.Current := by
  cases hstep with
  | read file => exact h.of_cached rfl fun id page hpage => ⟨page, hpage, rfl, rfl⟩
  | @writeBack victim w =>
    refine h.of_cached rfl fun id page hpage => ?_
    rw [w.page?_result] at hpage
    split at hpage
    · next hid =>
      cases hpage
      exact ⟨w.page, hid ▸ w.cached, rfl, rfl⟩
    · exact ⟨page, hpage, rfl, rfl⟩
  | evict hcached hclean =>
    exact h.of_cached rfl fun id page hpage => ⟨page, page?_of_without hpage, rfl, rfl⟩
  | @load id load hmiss hroom =>
    rw [current_iff] at h ⊢
    intro other page file hpage hregistered
    rw [page?_holding] at hpage
    split at hpage
    · next hother =>
      cases hpage
      rw [hother, load.page_id] at hregistered
      cases load.registered.symm.trans hregistered
      have hformed := load.within.2.2.1
      exact ⟨congrArg Schema.types hformed.schema, hformed.size⟩
    · exact h other page file hpage hregistered

/-- The rows that readers would see of a page if all pages without a mark were dropped. -/
def settledRows (db : Database) (file : TableFile) (n : PageNo) : List (Option (List Field)) :=
  match db.pool.page? ⟨file.id, n⟩ with
  | some page => if page.isDirty then page.rows else file.rowsOnDisk db.volume n
  | none => file.rowsOnDisk db.volume n

theorem settledRows_of_cached {file : TableFile} {n : PageNo} {page : Page}
    (h : db.pool.page? ⟨file.id, n⟩ = some page) :
    db.settledRows file n = if page.isDirty then page.rows else file.rowsOnDisk db.volume n := by
  rw [settledRows, h]

theorem settledRows_of_missing {file : TableFile} {n : PageNo} (h : db.pool.page? ⟨file.id, n⟩ = none) :
    db.settledRows file n = file.rowsOnDisk db.volume n := by
  rw [settledRows, h]

theorem settledRows_of_same {file : TableFile} {n : PageNo}
    (hpool : db'.pool.page? ⟨file.id, n⟩ = db.pool.page? ⟨file.id, n⟩)
    (hdisk : file.rowsOnDisk db'.volume n = file.rowsOnDisk db.volume n) :
    db'.settledRows file n = db.settledRows file n := by
  rw [settledRows, settledRows, hpool, hdisk]

theorem Current.rows_onDisk (h : db.Current) (horderly : db.Orderly) {file : TableFile}
    (hfile : db.catalog.file file.id = .ok file) {n : PageNo} {page : Page}
    (hcached : db.pool.page? ⟨file.id, n⟩ = some page) :
    (page.onDisk db.volume).rows = file.rowsOnDisk db.volume n := by
  have hid := (horderly.cached _ page hcached).identified
  have hrows := TableFile.rows_onDisk (congrArg PageId.table hid) (h.matched _ page file hcached hfile)
    (h.fits _ page file hcached hfile) db.volume
  rwa [hid] at hrows

theorem Current.settledRows_eq_iff (h : db.Current) (horderly : db.Orderly) {file : TableFile}
    (hfile : db.catalog.file file.id = .ok file) (n : PageNo) :
    db.settledRows file n = db.rowsAt file n ↔ ¬ db.Torn ⟨file.id, n⟩ := by
  cases hcached : db.pool.page? ⟨file.id, n⟩ with
  | none =>
    rw [settledRows_of_missing hcached, rowsAt, hcached]
    exact iff_of_true rfl (not_torn_of_missing hcached)
  | some page =>
    have hshaped := (horderly.cached _ page hcached).shaped
    rw [settledRows_of_cached hcached, rowsAt_of_cached hcached, torn_iff_of_cached hcached,
      hshaped.sameContents_onDisk_iff, h.rows_onDisk horderly hfile hcached]
    cases page.isDirty <;> simp

theorem WriteBack.settledRows {victim : PageId} (w : WriteBack db victim) (h : db.Current)
    (horderly : db.Orderly) {file : TableFile} (hfile : db.catalog.file file.id = .ok file) (n : PageNo) :
    w.result.settledRows file n = db.settledRows file n := by
  have hback := w.page?_result ⟨file.id, n⟩
  by_cases hvictim : (⟨file.id, n⟩ : PageId) = victim
  · subst hvictim
    have hplace := w.place horderly
    have hsame : w.file = file := horderly.file_eq w.registered hfile (congrArg PageId.table hplace)
    have hnumber : w.page.id.number = n := congrArg PageId.number hplace
    have hagrees := h.matched _ w.page file w.cached hfile
    have hsize := h.fits _ w.page file w.cached hfile
    have hshaped := (horderly.cached _ w.page w.cached).shaped
    rw [if_pos rfl] at hback
    rw [settledRows_of_cached hback, settledRows_of_cached w.cached, w.dirty, if_pos rfl]
    change file.rowsOnDisk (w.file.pages.replace db.volume w.page.id.number w.image) n = w.page.rows
    rw [hsame, hnumber, TableFile.rowsOnDisk_replace_of_agrees hshaped hagrees hsize w.encoded, if_pos rfl]
  · rw [if_neg hvictim] at hback
    apply settledRows_of_same hback
    have himage : file.pages.image w.result.volume n = file.pages.image db.volume n := by
      apply w.image_other horderly _ hvictim
      intro hid
      rw [horderly.file_eq hfile w.registered hid]
    rw [TableFile.rowsOnDisk, TableFile.rowsOnDisk, TableFile.pageOnDisk, TableFile.pageOnDisk, himage]

theorem Turnover.settledRows (hstep : Turnover db db') (h : db.Current) (horderly : db.Orderly)
    {file : TableFile} (hfile : db.catalog.file file.id = .ok file) (n : PageNo) :
    db'.settledRows file n = db.settledRows file n := by
  cases hstep with
  | read other => rfl
  | writeBack w => exact w.settledRows h horderly hfile n
  | @evict victim page hcached hclean =>
    have hpool : (db.without victim).pool.page? ⟨file.id, n⟩ =
        if (⟨file.id, n⟩ : PageId) = victim then none else db.pool.page? ⟨file.id, n⟩ :=
      Pool.page?_drop _ _ _
    split at hpool
    · next hvictim =>
      subst hvictim
      rw [settledRows_of_missing hpool, settledRows_of_cached hcached, hclean]
      rfl
    · exact settledRows_of_same hpool rfl
  | @load id load hmiss hroom =>
    have hpool : (db.holding load.page).pool.page? ⟨file.id, n⟩ =
        if (⟨file.id, n⟩ : PageId) = load.page.id then some load.page else db.pool.page? ⟨file.id, n⟩ :=
      page?_holding _ _
    split at hpool
    · next hloaded =>
      have hmissing : db.pool.page? ⟨file.id, n⟩ = none := by
        rw [hloaded, load.page_id]
        exact page?_eq_none hmiss
      rw [settledRows_of_cached hpool, settledRows_of_missing hmissing, load.within.2.1]
      rfl
    · exact settledRows_of_same hpool rfl

theorem Turnover.marked (hstep : Turnover db db') {id : PageId} {page : Page}
    (hcached : db'.pool.page? id = some page) (hdirty : page.isDirty = true) :
    db.pool.page? id = some page := by
  cases hstep with
  | read other => exact hcached
  | writeBack w =>
    rw [w.page?_result] at hcached
    split at hcached
    · cases hcached
      cases hdirty
    · exact hcached
  | evict => exact page?_of_without hcached
  | load load =>
    rw [page?_holding] at hcached
    split at hcached
    · cases hcached
      rw [load.within.2.1] at hdirty
      cases hdirty
    · exact hcached

/-- What has been done has marked and torn no page, kept the settled rows, and only added empty pages. -/
structure SparesData (db db' : Database) : Prop where
  setup : SameSetup db db'
  marked : ∀ id page, db'.pool.page? id = some page → page.isDirty = true → db.pool.page? id = some page
  torn : ∀ id, db'.Torn id → db.Torn id ∧ db'.pool.page? id = db.pool.page? id
  longer : ∀ file, db.catalog.file file.id = .ok file →
    file.pageTotal db.volume ≤ file.pageTotal db'.volume
  kept : ∀ file, db.catalog.file file.id = .ok file → ∀ n : PageNo, n.toNat < file.pageTotal db.volume →
    db'.settledRows file n = db.settledRows file n
  added : ∀ file, db.catalog.file file.id = .ok file → ∀ n : PageNo,
    file.pageTotal db.volume ≤ n.toNat → n.toNat < file.pageTotal db'.volume →
      db'.settledRows file n = List.replicate file.slotCount none

theorem SparesData.refl (db : Database) : SparesData db db := by
  constructor
  case setup => exact .refl db
  case marked => exact fun _ _ hcached _ => hcached
  case torn => exact fun _ htorn => ⟨htorn, rfl⟩
  case longer => exact fun _ _ => Nat.le_refl _
  case kept => exact fun _ _ _ _ => rfl
  case added =>
    intro file _ n hfrom hto
    exact absurd hto (Nat.not_lt.mpr hfrom)

theorem SparesData.trans {a b c : Database} (hab : SparesData a b) (hbc : SparesData b c) :
    SparesData a c := by
  have hthere {file : TableFile} (hfile : a.catalog.file file.id = .ok file) :
      b.catalog.file file.id = .ok file := by rwa [hab.setup.catalog]
  constructor
  case setup => exact hab.setup.trans hbc.setup
  case marked =>
    intro id page hcached hdirty
    exact hab.marked id page (hbc.marked id page hcached hdirty) hdirty
  case torn =>
    intro id htorn
    obtain ⟨hmiddle, hlast⟩ := hbc.torn id htorn
    obtain ⟨hfirst, hpool⟩ := hab.torn id hmiddle
    exact ⟨hfirst, hlast.trans hpool⟩
  case longer =>
    intro file hfile
    exact Nat.le_trans (hab.longer file hfile) (hbc.longer file (hthere hfile))
  case kept =>
    intro file hfile n hn
    have hmiddle := Nat.lt_of_lt_of_le hn (hab.longer file hfile)
    rw [hbc.kept file (hthere hfile) n hmiddle, hab.kept file hfile n hn]
  case added =>
    intro file hfile n hfrom hto
    by_cases hmiddle : n.toNat < file.pageTotal b.volume
    · rw [hbc.kept file (hthere hfile) n hmiddle, hab.added file hfile n hfrom hmiddle]
    · exact hbc.added file (hthere hfile) n (Nat.le_of_not_lt hmiddle) hto

theorem Turnover.sparesData (hstep : Turnover db db') (h : db.Current) (horderly : db.Orderly) :
    SparesData db db' := by
  have htotal {file : TableFile} (hfile : db.catalog.file file.id = .ok file) :
      file.pageTotal db'.volume = file.pageTotal db.volume :=
    pageTotal_of_turnovers horderly (.single hstep) (horderly.sizedAs hfile)
  constructor
  case setup => exact hstep.sameSetup
  case marked => exact fun id page hcached hdirty => hstep.marked hcached hdirty
  case torn => exact fun id htorn => hstep.torn horderly ((h.turnover hstep).fits id) htorn
  case longer => exact fun file hfile => Nat.le_of_eq (htotal hfile).symm
  case kept => exact fun file hfile n _ => hstep.settledRows h horderly hfile n
  case added =>
    intro file hfile n hfrom hto
    rw [htotal hfile] at hto
    exact absurd hto (Nat.not_lt.mpr hfrom)

theorem Current.turnovers (h : db.Current) (horderly : db.Orderly)
    (hsteps : ReflTransGen Turnover db db') : db'.Current ∧ SparesData db db' := by
  induction hsteps with
  | refl =>
    exact ⟨h, .refl db⟩
  | tail hfirst hstep ih =>
    obtain ⟨hcurrent, hspares⟩ := ih
    exact ⟨hcurrent.turnover hstep, hspares.trans (hstep.sparesData hcurrent (horderly.turnovers hfirst))⟩

theorem Orderly.pageTotal_reserving (h : db.Orderly) {file other : TableFile}
    (hfile : db.catalog.file file.id = .ok file) (hother : db.catalog.file other.id = .ok other)
    (page : Nat) : other.pageTotal (db.reserving file page).volume =
      if other = file then max (file.pageTotal db.volume) ((UInt32.ofNat page).toNat + 1)
      else other.pageTotal db.volume := by
  by_cases hid : other.id = file.id
  · have hsame := h.file_eq hother hfile hid
    subst hsame
    rw [if_pos rfl]
    exact TableFile.pageTotal_replace List.length_replicate _ _
  · rw [if_neg fun heq => hid (congrArg TableFile.id heq)]
    exact TableFile.pageTotal_replace_other hid _ _ _

theorem Orderly.rowsOnDisk_reserving (h : db.Orderly) {file other : TableFile}
    (hfile : db.catalog.file file.id = .ok file) (hother : db.catalog.file other.id = .ok other)
    (page : Nat) (n : PageNo) : other.rowsOnDisk (db.reserving file page).volume n =
      if other = file ∧ n = UInt32.ofNat page then List.replicate file.slotCount none
      else other.rowsOnDisk db.volume n := by
  by_cases hid : other.id = file.id
  · have hsame := h.file_eq hother hfile hid
    subst hsame
    refine (TableFile.rowsOnDisk_zeros other _ _ _).trans ?_
    simp only [true_and]
  · rw [if_neg fun hboth => hid (congrArg TableFile.id hboth.1)]
    exact TableFile.rowsOnDisk_replace_other hid _ _ _ _

theorem Current.reserving (h : db.Current) (horderly : db.Orderly) {file : TableFile}
    (hfile : db.catalog.file file.id = .ok file) {page : Nat}
    (hlast : (UInt32.ofNat page).toNat = file.pageTotal db.volume) :
    (db.reserving file page).Current ∧ SparesData db (db.reserving file page) := by
  have hpool (id : PageId) : (db.reserving file page).pool.page? id = db.pool.page? id := rfl
  have hmissing := h.missing_behind horderly hfile (Nat.le_of_eq hlast.symm)
  refine ⟨h.of_cached rfl fun id page hpage => ⟨page, hpage, rfl, rfl⟩, ?_⟩
  constructor
  case setup => exact ⟨rfl, rfl, rfl⟩
  case marked => exact fun _ _ hcached _ => hcached
  case torn =>
    intro id htorn
    refine ⟨torn_of_same (hpool id) (fun found hcached => ?_) htorn, rfl⟩
    have hid := (horderly.cached id found hcached).identified
    apply Page.onDisk_replace_other _ _ _ List.length_replicate
    · intro htable
      rw [hid] at htable
      exact h.fits id found file hcached (by rwa [htable])
    · rw [hid]
      rintro rfl
      rw [hmissing] at hcached
      cases hcached
  case longer =>
    intro other hother
    rw [horderly.pageTotal_reserving hfile hother]
    split
    · next hsame =>
      rw [hsame]
      exact Nat.le_max_left _ _
    · exact Nat.le_refl _
  case kept =>
    intro other hother n hn
    apply settledRows_of_same (hpool _)
    rw [horderly.rowsOnDisk_reserving hfile hother, if_neg]
    rintro ⟨rfl, rfl⟩
    exact Nat.ne_of_lt hn hlast
  case added =>
    intro other hother n hfrom hto
    rw [horderly.pageTotal_reserving hfile hother] at hto
    split at hto
    · next hsame =>
      subst hsame
      have hn : n = UInt32.ofNat page := UInt32.toNat_inj.mp (by omega)
      subst hn
      rw [settledRows_of_missing ((hpool _).trans hmissing), horderly.rowsOnDisk_reserving hfile hother,
        if_pos ⟨rfl, rfl⟩]
    · exact absurd hto (Nat.not_lt.mpr hfrom)

theorem Current.insertTuple_error (h : db.Current) (horderly : db.Orderly) (hsmall : db.Small)
    {txn : TransactionId} {table : TableId} {t : Tuple} {e : Fault}
    (hinsert : insertTuple txn table t db = .error e db') :
    db'.Orderly ∧ db'.Current ∧ SparesData db db' := by
  have hself : db.Orderly ∧ db.Current ∧ SparesData db db := ⟨horderly, h, .refl db⟩
  cases hfile : db.catalog.file table with
  | error e =>
    rw [insertTuple_of_missing txn t hfile] at hinsert
    cases hinsert
    exact hself
  | ok file =>
    rw [insertTuple_of_registered txn t hfile, insertInto_eq] at hinsert
    have hinsert := unanswered_eq_error hinsert
    split at hinsert
    case isFalse hagrees =>
      cases hinsert
      exact hself
    case isTrue hagrees =>
      rcases insertAmong_error_cases _ _ horderly hinsert with ⟨_, hpages⟩ | ⟨full, hfull, hpages⟩
      · exact ⟨horderly.turnovers hpages, h.turnovers horderly hpages⟩
      · have hwalk := hfull.turnovers horderly
        obtain ⟨hcurrent, hspared⟩ := h.turnovers horderly hwalk
        have hordered := horderly.turnovers hwalk
        have hregistered : full.catalog.file file.id = .ok file := by
          rw [(sameSetup_of_turnovers hwalk).catalog]
          exact horderly.registered hfile
        have hlast : (UInt32.ofNat (0 + (file.numPages db.volume).toNat)).toNat =
            file.pageTotal full.volume := by
          rw [Nat.zero_add, UInt32.ofNat_toNat, TableFile.numPages_toNat (hsmall table file hfile),
            pageTotal_of_turnovers horderly hwalk (horderly.sizedAs hfile)]
        obtain ⟨hreserved, hreserves⟩ := hcurrent.reserving hordered hregistered hlast
        have hthere : (full.reserving file (0 + (file.numPages db.volume).toNat)).Orderly :=
          hordered.storing _ List.length_replicate
        obtain ⟨hlater, hspares⟩ := hreserved.turnovers hthere hpages
        exact ⟨hthere.turnovers hpages, hlater, (hspared.trans hreserves).trans hspares⟩

theorem Current.deleteTuple_error (h : db.Current) (horderly : db.Orderly) {txn : TransactionId}
    {t : Tuple} {e : Fault} (hdelete : deleteTuple txn t db = .error e db') :
    db'.Orderly ∧ db'.Current ∧ SparesData db db' := by
  have hself : db.Orderly ∧ db.Current ∧ SparesData db db := ⟨horderly, h, .refl db⟩
  cases hrecord : t.record with
  | none =>
    rw [deleteTuple_of_noRecord txn hrecord] at hdelete
    cases hdelete
    exact hself
  | some record =>
    cases hfile : db.catalog.file record.page.table with
    | error e =>
      rw [deleteTuple_of_missing txn hrecord hfile] at hdelete
      cases hdelete
      exact hself
    | ok file =>
      rw [deleteTuple_eq txn hrecord hfile] at hdelete
      cases hcheck : file.checkPage db.volume record.page with
      | error e =>
        rw [hcheck] at hdelete
        cases hdelete
        exact hself
      | ok _ =>
        rw [hcheck] at hdelete
        have hpages := horderly.turnovers_of_update_error (fun _ _ _ => Page.delete_eq_error)
          (unanswered_eq_error hdelete)
        exact ⟨horderly.turnovers hpages, h.turnovers horderly hpages⟩

/-- The page in the cache, or else the page that is read from disk. -/
def logicalPage? (db : Database) (file : TableFile) (n : PageNo) : Option Page :=
  (db.pool.page? ⟨file.id, n⟩).or (file.pageOnDisk db.volume n).toOption

theorem Current.exists_logicalPage (h : db.Current) (horderly : db.Orderly) {file : TableFile}
    (hfile : db.catalog.file file.id = .ok file) (n : PageNo) :
    ∃ page, db.logicalPage? file n = some page ∧ page.id = ⟨file.id, n⟩ ∧ page.Shaped ∧
      page.schema.Agrees file.schema ∧ page.rows = db.rowsAt file n := by
  cases hcached : db.pool.page? ⟨file.id, n⟩ with
  | some page =>
    have hwithin := horderly.cached _ page hcached
    refine ⟨page, by rw [logicalPage?, hcached, Option.some_or], hwithin.identified, hwithin.shaped,
      h.matched _ page file hcached hfile, (rowsAt_of_cached hcached).symm⟩
  | none =>
    obtain ⟨page, hpage, hid, _, hformed, hrows⟩ := file.pageOnDisk_eq_ok db.volume n
    refine ⟨page, by rw [logicalPage?, hcached, hpage]; rfl, hid, hformed.shaped, ?_, ?_⟩
    · exact congrArg Schema.types hformed.schema
    · rw [hrows, rowsAt, hcached]

/-- What an operation that failed has left of the data: where a page has other contents than before, it
was torn and no longer is, what was appended is empty, and nothing has been marked. -/
structure LeavesData (db db' : Database) : Prop where
  existing : ∀ table file, db.catalog.file table = .ok file → ∀ n : PageNo,
    n.toNat < file.pageTotal db.volume →
      (Option.Rel Page.SameContents (db.logicalPage? file n) (db'.logicalPage? file n) ↔
        ¬ (db.Torn ⟨file.id, n⟩ ∧ ¬ db'.Torn ⟨file.id, n⟩))
  appended : ∀ table file, db.catalog.file table = .ok file → ∀ n : PageNo,
    file.pageTotal db.volume ≤ n.toNat → n.toNat < file.pageTotal db'.volume →
      ∃ page, db'.logicalPage? file n = some page ∧ page.tuples = []
  clean : ∀ id page, db'.pool.page? id = some page → page.isDirty = true →
    ∃ old, db.pool.page? id = some old ∧ old.isDirty = true

theorem SparesData.leavesData (h : SparesData db db') (hdb : db.Current) (horderly : db.Orderly)
    (hdb' : db'.Current) (horderly' : db'.Orderly) : LeavesData db db' := by
  constructor
  case existing =>
    intro table file hregistered n hn
    have hfile := horderly.registered hregistered
    have hfile' : db'.catalog.file file.id = .ok file := by rwa [h.setup.catalog]
    obtain ⟨page, hpage, hid, hshaped, hagrees, hrows⟩ := hdb.exists_logicalPage horderly hfile n
    obtain ⟨page', hpage', hid', hshaped', hagrees', hrows'⟩ := hdb'.exists_logicalPage horderly' hfile' n
    have hbefore := hdb.settledRows_eq_iff horderly hfile n
    have hafter := hdb'.settledRows_eq_iff horderly' hfile' n
    rw [h.kept file hfile n hn] at hafter
    rw [hpage, hpage', Option.rel_some_some, hshaped.sameContents_iff hshaped' (hid.trans hid'.symm)
      (hagrees.trans hagrees'.symm), hrows, hrows']
    by_cases htorn : db'.Torn ⟨file.id, n⟩
    · -- A page that is torn still is the same page in the cache.
      obtain ⟨_, hpool⟩ := h.torn _ htorn
      refine iff_of_true ?_ fun hdropped => hdropped.2 htorn
      obtain ⟨found, hcached, _⟩ := htorn
      rw [rowsAt_of_cached hcached, rowsAt_of_cached (hpool.symm.trans hcached)]
    · rw [← hafter.mpr htorn, eq_comm, hbefore]
      simp only [htorn, not_false_eq_true, and_true]
  case appended =>
    intro table file hregistered n hfrom hto
    have hfile := horderly.registered hregistered
    have hfile' : db'.catalog.file file.id = .ok file := by rwa [h.setup.catalog]
    obtain ⟨page, hpage, _, _, _, hrows⟩ := hdb'.exists_logicalPage horderly' hfile' n
    have hwhole : ¬ db'.Torn ⟨file.id, n⟩ := fun htorn =>
      not_torn_of_missing (hdb.missing_behind horderly hfile hfrom) (h.torn _ htorn).1
    rw [← (hdb'.settledRows_eq_iff horderly' hfile' n).mpr hwhole, h.added file hfile n hfrom hto] at hrows
    exact ⟨page, hpage, Page.tuples_of_blank hrows⟩
  case clean =>
    intro id page hcached hdirty
    exact ⟨page, h.marked id page hcached hdirty, hdirty⟩

/-- In every state that requests lead to, where the cached pages are those of the registered files and
no file has all the pages that can be counted, an insert or delete that fails leaves the data, the pages
apart that were torn and have been dropped. -/
theorem failed_edit_leavesData (h : db.Reachable) (hcurrent : db.Current) (hsmall : db.Small)
    (txn : TransactionId) (t : Tuple) :
    (∀ table e db', insertTuple txn table t db = .error e db' → LeavesData db db') ∧
      ∀ e db', deleteTuple txn t db = .error e db' → LeavesData db db' := by
  have horderly := h.orderly
  constructor
  · intro table e db' hinsert
    obtain ⟨horderly', hcurrent', hspares⟩ := hcurrent.insertTuple_error horderly hsmall hinsert
    exact hspares.leavesData hcurrent horderly hcurrent' horderly'
  · intro e db' hdelete
    obtain ⟨horderly', hcurrent', hspares⟩ := hcurrent.deleteTuple_error horderly hdelete
    exact hspares.leavesData hcurrent horderly hcurrent' horderly'

theorem current_of_frames (h : ∀ entry ∈ db.pool.frames.entries,
    (db.catalog.file entry.1.table).toOption.all (fun file =>
      entry.2.page.schema.Agrees file.schema && entry.2.page.size == file.pageSize) = true) :
    db.Current := by
  rw [current_iff]
  intro id page file hcached hfile
  obtain ⟨frame, hframe, rfl⟩ := Option.map_eq_some_iff.mp hcached
  have hentry := h (id, frame) (Assoc.mem_entries_of_get? hframe)
  rw [hfile] at hentry
  change (decide (frame.page.schema.Agrees file.schema) &&
    frame.page.size == file.pageSize) = true at hentry
  rwa [Bool.and_eq_true, decide_eq_true_eq, beq_iff_eq] at hentry

/-- The changed page of a forgotten table cannot be written back to make room, so the insert into a new
table fails behind the page that it has reserved. -/
theorem failed_edit_leavesData_forgotten_table :
    let schema : Schema := ⟨[{ type := .integer }], List.cons_ne_nil _ _⟩
    let file : TableFile := ⟨1, ⟨"u", 9⟩, schema, by decide, by decide⟩
    let start := (Call.insert ⟨1⟩ (.file "t") ⟨schema, [.int 7], none⟩).leaves
      (withTable { pageSize := 9, poolPages := 1 } "t" schema)
    let db := after (createTable "u" "u" schema "") (after clearCatalog start)
    db.Reachable ∧ db.Current ∧ db.Small ∧ db.catalog.file (.file "u") = .ok file ∧
      ∃ e db', insertTuple ⟨1⟩ (.file "u") ⟨schema, [.int 8], none⟩ db = .error e db' ∧
        file.pageTotal db.volume = 0 ∧ file.pageTotal db'.volume = 1 ∧ LeavesData db db' := by
  intro schema file start db
  have hstart : start.Reachable :=
    (reachable_withTable _ _ _).request (.use (.call (.insert ⟨1⟩ (.file "t") ⟨schema, [.int 7], none⟩)))
      (Tuple.built_integer 7)
  have hcleared := hstart.request .clearCatalog trivial
  have hreachable := hcleared.request (.use (.create "u" "u" schema "")) trivial
  rw [Request.leaves, Request.perform, Use.perform, after_ignored] at hreachable
  change db.Reachable at hreachable
  have hcurrent : db.Current := current_of_frames (by decide +kernel)
  have hsmall : db.Small := by decide +kernel
  have hfails : outcome (insertTuple ⟨1⟩ (.file "u") ⟨schema, [.int 8], none⟩ db) =
      .error (.error (.tableNotFound (.file "t"))) := by
    decide +kernel
  obtain ⟨db', hinsert⟩ := exists_error_of_outcome hfails
  refine ⟨hreachable, hcurrent, hsmall, by decide +kernel, _, db', hinsert, by decide +kernel, ?_, ?_⟩
  · rw [← after_of_error hinsert]
    decide +kernel
  · exact (failed_edit_leavesData hreachable hcurrent hsmall ⟨1⟩ _).1 _ _ db' hinsert

/-- An update that fails has deleted the row of a page without marking it. A delete in another table then
fails too, but has dropped the page to make room, and the row is there again. -/
theorem deleted_row_returns :
    let schema : Schema := ⟨[{ type := .integer }], List.cons_ne_nil _ _⟩
    let stored : Tuple := ⟨schema, [.int 7], some ⟨⟨.file "t", 0⟩, 0⟩⟩
    let file : TableFile := ⟨1, ⟨"t", 9⟩, schema, by decide, by decide⟩
    let start := run [.insert ⟨1⟩ (.file "u") ⟨schema, [.int 1], none⟩, .complete ⟨1⟩ true]
      (withTable { pageSize := 9, poolPages := 1 } "u" schema)
    let db := run [.insert ⟨1⟩ (.file "t") ⟨schema, [.int 7], none⟩, .complete ⟨1⟩ true,
        .update ⟨1⟩ ⟨.file "t", 0⟩ (PageCall.sequence [.delete stored, .delete stored])]
      (after (createTable "t" "t" schema "") start)
    db.Reachable ∧ db.Current ∧ db.Small ∧ db.catalog.file (.file "t") = .ok file ∧
      file.pageTotal db.volume = 1 ∧
      ∃ e db', deleteTuple ⟨2⟩ ⟨schema, [.int 2], some ⟨⟨.file "u", 0⟩, 1⟩⟩ db = .error e db' ∧
        ¬ Option.Rel Page.SameContents (db.logicalPage? file 0) (db'.logicalPage? file 0) := by
  intro schema stored file start db
  have hstart : start.Reachable := by
    refine (reachable_withTable _ _ _).run ?_
    simp [schema, Call.Proper, Call.Edits, Tuple.built_integer]
  have hcreated := hstart.request (.use (.create "t" "t" schema "")) trivial
  rw [Request.leaves, Request.perform, Use.perform, after_ignored] at hcreated
  have hdeletes : ∀ call ∈ [PageCall.delete stored, .delete stored], call.OfRows := by
    simp [PageCall.OfRows]
  have hreachable : db.Reachable := by
    refine hcreated.run ?_
    simp [schema, Call.Proper, Call.Edits, Tuple.built_integer, PageCall.handles_sequence hdeletes]
  have hfails : outcome (deleteTuple ⟨2⟩ ⟨schema, [.int 2], some ⟨⟨.file "u", 0⟩, 1⟩⟩ db) =
      .error (.error (.emptySlot ⟨.file "u", 0⟩ 1)) := by
    decide +kernel
  obtain ⟨db', hdelete⟩ := exists_error_of_outcome hfails
  refine ⟨hreachable, current_of_frames (by decide +kernel), by decide +kernel, by decide +kernel,
    by decide +kernel, _, db', hdelete, fun hrel => ?_⟩
  have hrows := Page.rows_eq_of_rel hrel
  rw [← after_of_error hdelete] at hrows
  revert hrows
  decide +kernel

end Database
end RowStore
