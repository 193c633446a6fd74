import RowStore.Proofs.FifoOrder
import RowStore.Proofs.PageArray
import RowStore.Proofs.PageEdits

/-!
# Cache and disk agree

Under calls the database takes small steps: it reads, writes back, drops and loads pages, edits one
row of a cached page, appends an empty page, or drops a page whatever its state. The invariant says
that a cached page without a mark has the rows of its image on disk, and every step keeps it.
-/
namespace RowStore
open Relation

namespace Database

/-- The cached page is the one of its number in a registered file, and shows what is on disk unless
it is marked. -/
structure Sound (db : Database) (id : PageId) (page : Page) (file : TableFile) : Prop where
  registered : db.catalog.file id.table = .ok file
  identified : page.id = id
  wellFormed : page.WellFormed file
  counted : id.number.toNat < file.pageTotal db.volume
  clean : page.isDirty = false → file.rowsOnDisk db.volume id.number = page.rows

/-- The invariant of cache and disk. -/
structure Coherent (db : Database) : Prop where
  inOrder : db.pool.InOrder
  named : ∀ table file, db.catalog.file table = .ok file → file.id = table
  cached : ∀ id page, db.pool.page? id = some page → ∃ file, Sound db id page file

/-- A step of paging, which no reader sees. -/
inductive Paging (db : Database) : Database → Prop
  | read (file : TableFile) : Paging db (db.countTransfer file Traffic.countRead)
  | writeBack {id : PageId} (w : WriteBack db id) : Paging db w.result
  | evict {id : PageId} {page : Page} (cached : db.pool.page? id = some page)
      (clean : page.isDirty = false) : Paging db (db.without id)
  | load {id : PageId} {page : Page} {file : TableFile} (sound : Sound db id page file)
      (clean : page.isDirty = false) (miss : db.pool.frames.get? id = none)
      (room : db.pool.size < db.pool.capacity) : Paging db (db.holding page)

/-- The database with one more page of zeros in the file. -/
def appending (db : Database) (file : TableFile) (n : PageNo) : Database :=
  db.storing file n (List.replicate file.pageSize 0)

/-- A step of paging, an edit of one row, the append of an empty page, or the loss of a page. Rows are
deleted at the named records only. -/
inductive Step (erased : RecordId → Prop) (db : Database) : Database → Prop
  | paging {db' : Database} (h : Paging db db') : Step erased db db'
  | insert (txn : TransactionId) {id : PageId} {page : Page} {slot : Nat} {t : Tuple}
      (cached : db.pool.page? id = some page) (agrees : t.schema.Agrees page.schema)
      (complete : t.Complete) (free : page.freeSlot? = some slot) :
      Step erased db (db.replacing id ((page.fill slot t).markDirty txn))
  | delete (txn : TransactionId) {record : RecordId} {page : Page} (named : erased record)
      (cached : db.pool.page? record.page = some page)
      (used : page.isSlotUsed record.slot.toNat = true) :
      Step erased db (db.replacing record.page ((page.free record.slot.toNat).markDirty txn))
  | append {file : TableFile} {n : PageNo} (registered : db.catalog.file file.id = .ok file)
      (last : n.toNat = file.pageTotal db.volume) : Step erased db (db.appending file n)
  | discard (id : PageId) : Step erased db (db.without id)

theorem Fresh.coherent {db : Database} (h : db.Fresh) : db.Coherent := by
  constructor
  case inOrder => exact h.inOrder
  case named => exact h.named
  case cached =>
    intro id page hpage
    rw [h.pool] at hpage
    cases hpage

/-- What a cached page is sound by is the catalog and its file. -/
theorem Sound.of_same {db db' : Database} {id : PageId} {page : Page} {file : TableFile}
    (h : Sound db id page file) (hcatalog : db'.catalog = db.catalog)
    (htotal : file.pageTotal db.volume ≤ file.pageTotal db'.volume)
    (hrows : file.rowsOnDisk db'.volume id.number = file.rowsOnDisk db.volume id.number) :
    Sound db' id page file :=
  ⟨hcatalog ▸ h.registered, h.identified, h.wellFormed, Nat.lt_of_lt_of_le h.counted htotal,
    fun hclean => hrows.trans (h.clean hclean)⟩

/-- A registered file is found under its own name only. -/
theorem Coherent.file_eq {db : Database} (h : db.Coherent) {file other : TableFile}
    {table : TableId} (hfile : db.catalog.file table = .ok file)
    (hother : db.catalog.file other.id = .ok other) (hid : other.id = file.id) : other = file := by
  rw [hid, h.named table file hfile, hfile] at hother
  exact (Except.ok.inj hother).symm

/-- A registered file is registered under its own name. -/
theorem Coherent.registered {db : Database} (h : db.Coherent) {table : TableId} {file : TableFile}
    (hfile : db.catalog.file table = .ok file) : db.catalog.file file.id = .ok file := by
  rwa [h.named table file hfile]

/-- A cached page of a registered file is sound. -/
theorem Coherent.sound_of_cached {db : Database} (h : db.Coherent) {file : TableFile} {n : PageNo}
    {page : Page} (hfile : db.catalog.file file.id = .ok file)
    (hcached : db.pool.page? ⟨file.id, n⟩ = some page) : Sound db ⟨file.id, n⟩ page file := by
  obtain ⟨home, hsound⟩ := h.cached _ page hcached
  have hregistered := hsound.registered
  rw [hfile] at hregistered
  cases hregistered
  exact hsound

theorem Sound.file_id {db : Database} (hdb : db.Coherent) {id : PageId} {page : Page}
    {file : TableFile} (h : Sound db id page file) : file.id = id.table :=
  hdb.named id.table file h.registered

theorem WriteBack.sound {db : Database} {id : PageId} (w : WriteBack db id) (h : db.Coherent) :
    Sound db id w.page w.file := by
  obtain ⟨file, hsound⟩ := h.cached id w.page w.cached
  have hregistered := w.registered
  rw [hsound.identified, hsound.registered] at hregistered
  cases hregistered
  exact hsound

theorem WriteBack.rowsOnDisk {db : Database} {id : PageId} (w : WriteBack db id) (h : db.Coherent)
    {file : TableFile} (hfile : db.catalog.file file.id = .ok file) (n : PageNo) :
    file.rowsOnDisk w.result.volume n =
      if ⟨file.id, n⟩ = id then w.page.rows else file.rowsOnDisk db.volume n := by
  have hsound := w.sound h
  change file.rowsOnDisk (w.file.pages.replace db.volume w.page.id.number w.image) n = _
  rw [hsound.identified]
  by_cases hid : file.id = w.file.id
  · cases h.file_eq hsound.registered hfile hid
    rw [TableFile.rowsOnDisk_replace hsound.wellFormed w.encoded]
    have hnumber : n = id.number ↔ (⟨w.file.id, n⟩ : PageId) = id := by
      rw [hsound.file_id h]
      exact ⟨fun hn => by rw [hn], fun hid => congrArg PageId.number hid⟩
    simp only [hnumber]
  · rw [TableFile.rowsOnDisk_replace_other hid, if_neg]
    intro heq
    apply hid
    rw [hsound.file_id h, ← heq]

theorem WriteBack.pageTotal {db : Database} {id : PageId} (w : WriteBack db id) (h : db.Coherent)
    {file : TableFile} (hfile : db.catalog.file file.id = .ok file) :
    file.pageTotal w.result.volume = file.pageTotal db.volume := by
  have hsound := w.sound h
  change file.pageTotal (w.file.pages.replace db.volume w.page.id.number w.image) = _
  rw [hsound.identified]
  by_cases hid : file.id = w.file.id
  · cases h.file_eq hsound.registered hfile hid
    rw [TableFile.pageTotal_replace w.length]
    exact Nat.max_eq_left hsound.counted
  · rw [TableFile.pageTotal_replace_other hid]

/-- The rows that readers see of a page. -/
def rowsAt (db : Database) (file : TableFile) (n : PageNo) : List (Option (List Field)) :=
  match db.pool.page? ⟨file.id, n⟩ with
  | some page => page.rows
  | none => file.rowsOnDisk db.volume n

theorem rowsAt_of_cached {db : Database} {file : TableFile} {n : PageNo} {page : Page}
    (h : db.pool.page? ⟨file.id, n⟩ = some page) : db.rowsAt file n = page.rows := by
  rw [rowsAt, h]

theorem rowsAt_of_missing {db : Database} {file : TableFile} {n : PageNo}
    (h : db.pool.page? ⟨file.id, n⟩ = none) : db.rowsAt file n = file.rowsOnDisk db.volume n := by
  rw [rowsAt, h]

/-- Without a mark readers see what is on disk. -/
theorem Coherent.rowsAt_of_clean {db : Database} (h : db.Coherent) {file : TableFile} {n : PageNo}
    (hfile : db.catalog.file file.id = .ok file)
    (hclean : ∀ page, db.pool.page? ⟨file.id, n⟩ = some page → page.isDirty = false) :
    db.rowsAt file n = file.rowsOnDisk db.volume n := by
  cases hcached : db.pool.page? ⟨file.id, n⟩ with
  | none => exact rowsAt_of_missing hcached
  | some page =>
    rw [rowsAt_of_cached hcached]
    exact ((h.sound_of_cached hfile hcached).clean (hclean page hcached)).symm

/-- No reader sees a difference. -/
structure SameRows (db db' : Database) : Prop where
  tables : SameTables db db'
  pages : ∀ file, db.catalog.file file.id = .ok file →
    file.pageTotal db'.volume = file.pageTotal db.volume
  rows : ∀ file, db.catalog.file file.id = .ok file → ∀ n, db'.rowsAt file n = db.rowsAt file n

theorem SameRows.refl (db : Database) : SameRows db db := ⟨.refl db, fun _ _ => rfl, fun _ _ _ => rfl⟩

theorem SameRows.trans {a b c : Database} (hab : SameRows a b) (hbc : SameRows b c) :
    SameRows a c := by
  constructor
  case tables => exact hab.tables.trans hbc.tables
  case pages =>
    intro file hfile
    exact (hbc.pages file (by rwa [hab.tables.catalog])).trans (hab.pages file hfile)
  case rows =>
    intro file hfile n
    exact (hbc.rows file (by rwa [hab.tables.catalog]) n).trans (hab.rows file hfile n)

theorem WriteBack.page?_result {db : Database} {id : PageId} (w : WriteBack db id) (other : PageId) :
    w.result.pool.page? other =
      if other = id then some w.page.markClean else db.pool.page? other := by
  change (db.pool.modify id Page.markClean).page? other = _
  rw [Pool.page?_modify]
  split
  · next h =>
    rw [h, w.cached]
    rfl
  · rfl

theorem Coherent.writeBack {db : Database} (h : db.Coherent) {id : PageId} (w : WriteBack db id) :
    w.result.Coherent := by
  constructor
  case inOrder => exact h.inOrder.of_outline w.outline
  case named => exact h.named
  case cached =>
    intro other page hpage
    rw [w.page?_result] at hpage
    by_cases hother : other = id
    · rw [if_pos hother, Option.some.injEq] at hpage
      have hsound := w.sound h
      have hfile := h.registered hsound.registered
      subst hother hpage
      refine ⟨w.file, hsound.registered, hsound.identified, hsound.wellFormed.markClean, ?_, ?_⟩
      · rw [w.pageTotal h hfile]
        exact hsound.counted
      · intro _
        rw [w.rowsOnDisk h hfile, if_pos (by rw [hsound.file_id h]), Page.rows_markClean]
    · rw [if_neg hother] at hpage
      obtain ⟨file, hsound⟩ := h.cached other page hpage
      have hid := hsound.file_id h
      have hfile := h.registered hsound.registered
      refine ⟨file, hsound.of_same rfl (Nat.le_of_eq (w.pageTotal h hfile).symm) ?_⟩
      rw [w.rowsOnDisk h hfile, if_neg]
      rw [hid]
      exact hother

theorem sameRows_writeBack {db : Database} (h : db.Coherent) {id : PageId} (w : WriteBack db id) :
    SameRows db w.result := by
  constructor
  case tables => exact w.sameTables
  case pages => exact fun file hfile => w.pageTotal h hfile
  case rows =>
    intro file hfile n
    rw [rowsAt, rowsAt, w.page?_result, w.rowsOnDisk h hfile]
    by_cases hid : (⟨file.id, n⟩ : PageId) = id
    · rw [if_pos hid, hid, w.cached]
      rfl
    · rw [if_neg hid, if_neg hid]

theorem Coherent.without {db : Database} (h : db.Coherent) (id : PageId) :
    (db.without id).Coherent := by
  constructor
  case inOrder => exact h.inOrder.drop id
  case named => exact h.named
  case cached =>
    intro other page hpage
    change (db.pool.drop id).page? other = some page at hpage
    rw [Pool.page?_drop] at hpage
    split at hpage
    · cases hpage
    · obtain ⟨file, hsound⟩ := h.cached other page hpage
      exact ⟨file, hsound.of_same rfl (Nat.le_refl _) rfl⟩

theorem rowsAt_without (db : Database) (id : PageId) (file : TableFile) (n : PageNo) :
    (db.without id).rowsAt file n =
      if ⟨file.id, n⟩ = id then file.rowsOnDisk db.volume n else db.rowsAt file n := by
  rw [rowsAt, rowsAt]
  change (match (db.pool.drop id).page? ⟨file.id, n⟩ with
    | some page => page.rows
    | none => file.rowsOnDisk db.volume n) = _
  rw [Pool.page?_drop]
  by_cases hid : (⟨file.id, n⟩ : PageId) = id
  · rw [if_pos hid, if_pos hid]
  · rw [if_neg hid, if_neg hid]

theorem sameRows_evict {db : Database} (h : db.Coherent) {id : PageId} {page : Page}
    (hcached : db.pool.page? id = some page) (hclean : page.isDirty = false) :
    SameRows db (db.without id) := by
  constructor
  case tables => exact ⟨rfl, rfl, rfl⟩
  case pages => exact fun _ _ => rfl
  case rows =>
    intro file hfile n
    rw [rowsAt_without]
    split
    · next hid =>
      subst hid
      rw [rowsAt_of_cached hcached, (h.sound_of_cached hfile hcached).clean hclean]
    · rfl

theorem Coherent.sound_of_parsed {db : Database} (h : db.Coherent) {id : PageId} {page : Page}
    {file : TableFile} (hregistered : db.catalog.file id.table = .ok file)
    (hcounted : id.number.toNat < file.pageTotal db.volume)
    (hparsed : file.pageOnDisk db.volume id.number = .ok page) :
    Sound db id page file ∧ page.isDirty = false := by
  obtain ⟨found, hfound, hid, hclean, hformed, hrows⟩ := file.pageOnDisk_eq_ok db.volume id.number
  rw [hparsed] at hfound
  cases hfound
  have hhome : page.id = id := by rw [hid, h.named id.table file hregistered]
  exact ⟨⟨hregistered, hhome, hformed, hcounted, fun _ => hrows.symm⟩, hclean⟩

theorem Coherent.holding {db : Database} (h : db.Coherent) {id : PageId} {page : Page}
    {file : TableFile} (hsound : Sound db id page file) (hmiss : db.pool.frames.get? id = none)
    (hroom : db.pool.size < db.pool.capacity) : (db.holding page).Coherent := by
  have hmiss' : db.pool.frames.get? page.id = none := by rwa [hsound.identified]
  constructor
  case inOrder => exact h.inOrder.install hmiss' hroom
  case named => exact h.named
  case cached =>
    intro other found hfound
    change (db.pool.install page).2.page? other = some found at hfound
    rw [Pool.page?_install, hsound.identified] at hfound
    by_cases hother : other = id
    · rw [if_pos hother, Option.some.injEq] at hfound
      subst hother hfound
      exact ⟨file, hsound.of_same rfl (Nat.le_refl _) rfl⟩
    · rw [if_neg hother] at hfound
      obtain ⟨home, hsound⟩ := h.cached other found hfound
      exact ⟨home, hsound.of_same rfl (Nat.le_refl _) rfl⟩

theorem page?_eq_none {pool : Pool} {id : PageId} (h : pool.frames.get? id = none) :
    pool.page? id = none := by
  rw [Pool.page?, h, Option.map_none]

theorem sameRows_holding {db : Database} {id : PageId} {page : Page}
    {file : TableFile} (hsound : Sound db id page file) (hclean : page.isDirty = false)
    (hmiss : db.pool.frames.get? id = none) : SameRows db (db.holding page) := by
  constructor
  case tables => exact ⟨rfl, rfl, rfl⟩
  case pages => exact fun _ _ => rfl
  case rows =>
    intro other hother n
    rw [rowsAt, rowsAt]
    change (match (db.pool.install page).2.page? ⟨other.id, n⟩ with
      | some page => page.rows
      | none => other.rowsOnDisk db.volume n) = _
    rw [Pool.page?_install, hsound.identified]
    by_cases hid : (⟨other.id, n⟩ : PageId) = id
    · subst hid
      have hregistered := hsound.registered
      rw [hother] at hregistered
      cases hregistered
      rw [if_pos rfl, page?_eq_none hmiss]
      exact (hsound.clean hclean).symm
    · rw [if_neg hid]

theorem Coherent.paging {db db' : Database} (h : db.Coherent) (hstep : Paging db db') :
    db'.Coherent ∧ SameRows db db' := by
  cases hstep with
  | read file =>
    refine ⟨⟨h.inOrder, h.named, fun id page hpage => ?_⟩,
      ⟨sameTables_countTransfer _ _ _, fun _ _ => rfl, fun _ _ _ => rfl⟩⟩
    obtain ⟨home, hsound⟩ := h.cached id page hpage
    exact ⟨home, hsound.of_same rfl (Nat.le_refl _) rfl⟩
  | writeBack w => exact ⟨h.writeBack w, sameRows_writeBack h w⟩
  | evict hcached hclean => exact ⟨h.without _, sameRows_evict h hcached hclean⟩
  | load hsound hclean hmiss hroom =>
    exact ⟨h.holding hsound hmiss hroom, sameRows_holding hsound hclean hmiss⟩

theorem Coherent.pages {db db' : Database} (h : db.Coherent) (hsteps : ReflTransGen Paging db db') :
    db'.Coherent ∧ SameRows db db' := by
  induction hsteps with
  | refl => exact ⟨h, .refl db⟩
  | tail _ hstep ih =>
    obtain ⟨hcoherent, hsame⟩ := ih.1.paging hstep
    exact ⟨hcoherent, ih.2.trans hsame⟩

theorem page?_replacing {db : Database} {id : PageId} {old : Page} (h : db.pool.page? id = some old)
    (page : Page) (other : PageId) :
    (db.replacing id page).pool.page? other =
      if other = id then some page else db.pool.page? other := by
  change (db.pool.modify id fun _ => page).page? other = _
  rw [Pool.page?_modify]
  split
  · next hid =>
    rw [hid, h]
    rfl
  · rfl

theorem Coherent.replacing {db : Database} (h : db.Coherent) {id : PageId} {old page : Page}
    {file : TableFile} (hsound : Sound db id old file) (hcached : db.pool.page? id = some old)
    (hid : page.id = id) (hformed : page.WellFormed file) (hdirty : page.isDirty = true) :
    (db.replacing id page).Coherent := by
  constructor
  case inOrder => exact h.inOrder.of_outline (Pool.outline_modify _ _ _)
  case named => exact h.named
  case cached =>
    intro other found hfound
    rw [page?_replacing hcached] at hfound
    by_cases hother : other = id
    · rw [if_pos hother, Option.some.injEq] at hfound
      subst hother hfound
      refine ⟨file, hsound.registered, hid, hformed, hsound.counted, fun hclean => ?_⟩
      rw [hdirty] at hclean
      cases hclean
    · rw [if_neg hother] at hfound
      obtain ⟨home, hsound⟩ := h.cached other found hfound
      exact ⟨home, hsound.of_same rfl (Nat.le_refl _) rfl⟩

theorem rowsAt_replacing {db : Database} {id : PageId} {old : Page}
    (h : db.pool.page? id = some old) (page : Page) (file : TableFile) (n : PageNo) :
    (db.replacing id page).rowsAt file n =
      if ⟨file.id, n⟩ = id then page.rows else db.rowsAt file n := by
  rw [rowsAt, rowsAt, page?_replacing h]
  by_cases hid : (⟨file.id, n⟩ : PageId) = id
  · rw [if_pos hid, if_pos hid]
  · rw [if_neg hid, if_neg hid]
    rfl

theorem pageTotal_appending {db : Database} (h : db.Coherent) {file other : TableFile} {n : PageNo}
    (hfile : db.catalog.file file.id = .ok file) (hlast : n.toNat = file.pageTotal db.volume)
    (hother : db.catalog.file other.id = .ok other) :
    other.pageTotal (db.appending file n).volume =
      if other.id = file.id then other.pageTotal db.volume + 1 else other.pageTotal db.volume := by
  change other.pageTotal (file.pages.replace db.volume n _) = _
  by_cases hid : other.id = file.id
  · cases h.file_eq hfile hother hid
    rw [TableFile.pageTotal_replace List.length_replicate, if_pos rfl, hlast]
    exact Nat.max_eq_right (Nat.le_succ _)
  · rw [TableFile.pageTotal_replace_other hid, if_neg hid]

theorem rowsOnDisk_appending {db : Database} (h : db.Coherent) {file other : TableFile}
    (hfile : db.catalog.file file.id = .ok file) (hother : db.catalog.file other.id = .ok other)
    (n m : PageNo) :
    other.rowsOnDisk (db.appending file n).volume m =
      if (⟨other.id, m⟩ : PageId) = ⟨file.id, n⟩ then List.replicate file.slotCount none
      else other.rowsOnDisk db.volume m := by
  change other.rowsOnDisk (file.pages.replace db.volume n _) m = _
  by_cases hid : other.id = file.id
  · cases h.file_eq hfile hother hid
    rw [TableFile.rowsOnDisk_zeros]
    simp only [PageId.mk.injEq, true_and]
  · rw [TableFile.rowsOnDisk_replace_other hid, if_neg]
    intro heq
    exact hid (congrArg PageId.table heq)

/-- The appended page is not cached, since cached pages have numbers below the number of pages. -/
theorem Coherent.missing_of_last {db : Database} (h : db.Coherent) {file : TableFile} {n : PageNo}
    (hfile : db.catalog.file file.id = .ok file) (hlast : n.toNat = file.pageTotal db.volume) :
    db.pool.page? ⟨file.id, n⟩ = none := by
  cases hpage : db.pool.page? ⟨file.id, n⟩ with
  | none => rfl
  | some page =>
    have hcounted := (h.sound_of_cached hfile hpage).counted
    rw [hlast] at hcounted
    exact absurd hcounted (Nat.lt_irrefl _)

theorem Coherent.appending {db : Database} (h : db.Coherent) {file : TableFile} {n : PageNo}
    (hfile : db.catalog.file file.id = .ok file) (hlast : n.toNat = file.pageTotal db.volume) :
    (db.appending file n).Coherent := by
  constructor
  case inOrder => exact h.inOrder
  case named => exact h.named
  case cached =>
    intro id page hpage
    obtain ⟨home, hsound⟩ := h.cached id page hpage
    have hid := hsound.file_id h
    have hhome := h.registered hsound.registered
    refine ⟨home, hsound.of_same rfl ?_ ?_⟩
    · rw [pageTotal_appending h hfile hlast hhome]
      split
      · exact Nat.le_succ _
      · exact Nat.le_refl _
    · rw [rowsOnDisk_appending h hfile hhome, if_neg]
      intro heq
      have hmissing := h.missing_of_last hfile hlast
      change db.pool.page? id = some page at hpage
      rw [← heq, hid, hpage] at hmissing
      cases hmissing

theorem rowsAt_appending {db : Database} (h : db.Coherent) {file other : TableFile} {n : PageNo}
    (hfile : db.catalog.file file.id = .ok file) (hlast : n.toNat = file.pageTotal db.volume)
    (hother : db.catalog.file other.id = .ok other) (m : PageNo) :
    (db.appending file n).rowsAt other m =
      if (⟨other.id, m⟩ : PageId) = ⟨file.id, n⟩ then List.replicate file.slotCount none
      else db.rowsAt other m := by
  have hdisk := rowsOnDisk_appending h hfile hother n m
  by_cases hid : (⟨other.id, m⟩ : PageId) = ⟨file.id, n⟩
  · rw [if_pos hid] at hdisk
    rw [if_pos hid, ← hdisk]
    apply rowsAt_of_missing
    rw [hid]
    exact h.missing_of_last hfile hlast
  · rw [if_neg hid] at hdisk
    rw [if_neg hid, rowsAt, rowsAt, hdisk]
    rfl

theorem Coherent.insert {db : Database} (h : db.Coherent) (txn : TransactionId) {id : PageId}
    {page : Page} {slot : Nat} {t : Tuple} (hcached : db.pool.page? id = some page)
    (hagrees : t.schema.Agrees page.schema) (hcomplete : t.Complete)
    (hfree : page.freeSlot? = some slot) :
    (db.replacing id ((page.fill slot t).markDirty txn)).Coherent := by
  obtain ⟨file, hsound⟩ := h.cached id page hcached
  have hslot : slot < file.slotCount := by
    rw [← hsound.wellFormed.slots]
    exact ((page.freeSlot?_eq_some_iff slot).mp hfree).1
  have hagrees : t.schema.Agrees file.schema := by rwa [← hsound.wellFormed.schema]
  exact h.replacing hsound hcached hsound.identified
    ((hsound.wellFormed.fill hslot hagrees hcomplete).markDirty txn) rfl

theorem Coherent.delete {db : Database} (h : db.Coherent) (txn : TransactionId) {id : PageId}
    {page : Page} {slot : Nat} (hcached : db.pool.page? id = some page)
    (hused : page.isSlotUsed slot = true) :
    (db.replacing id ((page.free slot).markDirty txn)).Coherent := by
  obtain ⟨file, hsound⟩ := h.cached id page hcached
  have hslot : slot < file.slotCount := by
    rw [← hsound.wellFormed.slots]
    rw [Page.isSlotUsed, Bool.and_eq_true, decide_eq_true_eq] at hused
    exact hused.1
  exact h.replacing hsound hcached hsound.identified
    ((hsound.wellFormed.free hslot).markDirty txn) rfl

theorem Coherent.step {erased : RecordId → Prop} {db db' : Database} (h : db.Coherent)
    (hstep : Step erased db db') : db'.Coherent := by
  cases hstep with
  | paging hpaging => exact (h.paging hpaging).1
  | insert txn hcached hagrees hcomplete hfree => exact h.insert txn hcached hagrees hcomplete hfree
  | delete txn hnamed hcached hused => exact h.delete txn hcached hused
  | append hfile hlast => exact h.appending hfile hlast
  | discard id => exact h.without id

theorem Coherent.steps {erased : RecordId → Prop} {db db' : Database} (h : db.Coherent)
    (hsteps : ReflTransGen (Step erased) db db') : db'.Coherent := by
  induction hsteps with
  | refl => exact h
  | tail _ hstep ih => exact ih.step hstep

end Database
end RowStore
