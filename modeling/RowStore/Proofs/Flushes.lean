import RowStore.Proofs.FifoDiscipline
import RowStore.Proofs.Progress

/-!
# What flushes write

A flush that visits all dirty pages writes each of them once to the file of its table and changes
nothing in the pool but the marks. The writes are counted through an invariant of every write-back:
the writes that a file has counted together with those that its dirty pages still owe. Afterwards no
page is dirty, so the files hold what readers see.
-/
namespace RowStore
open Relation

theorem Page.markClean_of_clean {page : Page} (h : page.isDirty = false) : page.markClean = page := by
  obtain ⟨id, schema, size, header, slots, dirtiedBy⟩ := page
  cases dirtiedBy with
  | none => rfl
  | some txn => cases h

namespace Database

/-- No cached page is marked. -/
def Clean (db : Database) : Prop := ∀ id page, db.pool.page? id = some page → page.isDirty = false

/-- The dirty pages, the oldest first, of the tables that are registered with the file. -/
def dirtyPages (db : Database) (file : TableFile) : List PageId :=
  db.pool.frames.keys.filter fun id => (db.pool.page? id).any Page.isDirty &&
    (db.catalog.file id.table).toOption.any fun home => home.serial == file.serial

theorem mem_keys_of_cached {db : Database} {id : PageId} {page : Page}
    (h : db.pool.page? id = some page) : id ∈ db.pool.frames.keys := by
  apply Classical.not_not.mp
  intro hout
  rw [page?_eq_none ((Assoc.get?_eq_none_iff _ _).mpr hout)] at h
  cases h

theorem mem_dirtyPages {db : Database} {file : TableFile} {id : PageId} :
    id ∈ db.dirtyPages file ↔ ∃ page home, db.pool.page? id = some page ∧ page.isDirty = true ∧
      db.catalog.file id.table = .ok home ∧ home.serial = file.serial := by
  rw [dirtyPages, List.mem_filter, Bool.and_eq_true, Option.any_eq_true, Option.any_eq_true]
  constructor
  · rintro ⟨-, ⟨page, hcached, hdirty⟩, home, hhome, hserial⟩
    refine ⟨page, home, hcached, hdirty, ?_, beq_iff_eq.mp hserial⟩
    cases hfile : db.catalog.file id.table with
    | error e => simp [hfile, Except.toOption] at hhome
    | ok found => simpa [hfile, Except.toOption] using hhome
  · rintro ⟨page, home, hcached, hdirty, hhome, hserial⟩
    refine ⟨mem_keys_of_cached hcached, ⟨page, hcached, hdirty⟩, home, ?_, beq_iff_eq.mpr hserial⟩
    rw [hhome]
    rfl

theorem Clean.dirtyPages_eq_nil {db : Database} (h : db.Clean) (file : TableFile) :
    db.dirtyPages file = [] := by
  rw [List.eq_nil_iff_forall_not_mem]
  intro id hmem
  obtain ⟨page, _, hcached, hdirty, _⟩ := mem_dirtyPages.mp hmem
  rw [h id page hcached] at hdirty
  cases hdirty

/-- The counters of the file once its dirty pages are written. -/
def settled (db : Database) (file : TableFile) : Traffic :=
  { db.trafficOf file with
    writes := (db.trafficOf file).writes + UInt32.ofNat (db.dirtyPages file).length }

theorem Clean.settled_eq {db : Database} (h : db.Clean) (file : TableFile) :
    db.settled file = db.trafficOf file := by
  rw [settled, h.dirtyPages_eq_nil]
  exact congrArg (Traffic.mk _) (UInt32.add_zero _)

theorem WriteBack.dirtyPages {db : Database} {id : PageId} (w : WriteBack db id)
    (h : db.pool.InOrder) (file : TableFile) :
    w.result.dirtyPages file = (db.dirtyPages file).erase id := by
  have hkeys : w.result.pool.frames.keys = db.pool.frames.keys := Assoc.keys_modify _ _ _
  have hnodup : (db.dirtyPages file).Nodup := by
    rw [Database.dirtyPages, h.keys]
    exact h.nodup.filter _
  rw [hnodup.erase_eq_filter, Database.dirtyPages, Database.dirtyPages, List.filter_filter, hkeys]
  apply List.filter_congr
  intro other _
  rw [w.page?_result]
  by_cases hother : other = id
  · simp [hother, Page.isDirty, Page.markClean]
  · rw [if_neg hother, bne_iff_ne.mpr hother, Bool.true_and]
    rfl

theorem WriteBack.trafficOf {db : Database} {id : PageId} (w : WriteBack db id) {file : TableFile}
    (hopened : file.serial < db.traffic.length) : w.result.trafficOf file =
      if w.file.serial = file.serial then (db.trafficOf file).countWrite else db.trafficOf file := by
  change ((db.traffic.modify w.file.serial Traffic.countWrite)[file.serial]?).getD {} = _
  rw [List.getElem?_modify, Database.trafficOf, List.getElem?_eq_getElem hopened]
  split <;> rfl

theorem WriteBack.settled {db : Database} (h : db.Coherent) {id : PageId} (w : WriteBack db id)
    {file : TableFile} (hopened : file.serial < db.traffic.length) :
    w.result.settled file = db.settled file := by
  have hregistered := w.registered
  rw [(w.sound h).identified] at hregistered
  have hmem : id ∈ db.dirtyPages file ↔ w.file.serial = file.serial := by
    rw [mem_dirtyPages]
    constructor
    · rintro ⟨_, home, _, _, hhome, hserial⟩
      rw [hregistered] at hhome
      cases hhome
      exact hserial
    · intro hserial
      exact ⟨w.page, w.file, w.cached, w.dirty, hregistered, hserial⟩
  have htraffic := w.trafficOf hopened
  rw [Database.settled, Database.settled, w.dirtyPages h.inOrder]
  by_cases hserial : w.file.serial = file.serial
  · obtain ⟨owed, howed⟩ := Nat.exists_eq_add_one_of_ne_zero
      (Nat.ne_of_gt (List.length_pos_of_mem (hmem.mpr hserial)))
    rw [if_pos hserial] at htraffic
    rw [htraffic, List.length_erase_of_mem (hmem.mpr hserial), howed, Nat.add_sub_cancel, UInt32.ofNat_add,
      UInt32.add_comm (UInt32.ofNat owed), ← UInt32.add_assoc]
    rfl
  · rw [if_neg hserial] at htraffic
    rw [htraffic, List.erase_of_not_mem fun hid => hserial (hmem.mp hid)]

theorem page?_of_writeBack {db db' : Database} {id : PageId} {wrote : Bool}
    (h : writeBack id db = .ok wrote db') (other : PageId) : db'.pool.page? other =
      if other = id then (db.pool.page? other).map Page.markClean else db.pool.page? other := by
  rcases writeBack_cases id db with ⟨hback, hclean⟩ | ⟨w, hback⟩ | ⟨e, hback⟩ <;>
    rw [hback] at h <;> cases h
  · split
    · next heq =>
      subst heq
      cases hcached : db.pool.page? other with
      | none => rfl
      | some page => rw [Option.map_some, Page.markClean_of_clean (hclean page hcached)]
    · rfl
  · rw [w.page?_result]
    split
    · next heq => rw [heq, w.cached, Option.map_some]
    · rfl

theorem settled_of_writeBack {db db' : Database} (hdb : db.Coherent) {id : PageId} {wrote : Bool}
    (h : writeBack id db = .ok wrote db') {file : TableFile}
    (hopened : file.serial < db.traffic.length) : db'.settled file = db.settled file := by
  rcases writeBack_cases id db with ⟨hback, _⟩ | ⟨w, hback⟩ | ⟨e, hback⟩ <;>
    rw [hback] at h <;> cases h
  · rfl
  · exact w.settled hdb hopened

theorem page?_of_writeAll {ids : List PageId} {db db' : Database}
    (h : writeAll ids db = .ok () db') (other : PageId) : db'.pool.page? other =
      if other ∈ ids then (db.pool.page? other).map Page.markClean else db.pool.page? other := by
  induction ids generalizing db with
  | nil =>
    cases h
    rfl
  | cons id ids ih =>
    rw [writeAll_cons, bind_eq_ok] at h
    obtain ⟨wrote, middle, hback, hrest⟩ := h
    rw [ih hrest, page?_of_writeBack hback]
    by_cases hmem : other ∈ ids <;> by_cases hid : other = id
    · rw [if_pos hmem, if_pos hid, if_pos (List.mem_cons_of_mem _ hmem), Option.map_map]
      rfl
    · rw [if_pos hmem, if_neg hid, if_pos (List.mem_cons_of_mem _ hmem)]
    · rw [if_neg hmem, if_pos hid, if_pos (hid ▸ List.mem_cons_self)]
    · rw [if_neg hmem, if_neg hid, if_neg (by simp [hid, hmem])]

theorem settled_of_writeAll {ids : List PageId} {db db' : Database} (hdb : db.Coherent)
    (h : writeAll ids db = .ok () db') {file : TableFile}
    (hopened : file.serial < db.traffic.length) : db'.settled file = db.settled file := by
  induction ids generalizing db with
  | nil =>
    cases h
    rfl
  | cons id ids ih =>
    rw [writeAll_cons, bind_eq_ok] at h
    obtain ⟨wrote, middle, hback, hrest⟩ := h
    have hpages := writeBack_pages id db
    rw [after_of_ok hback] at hpages
    obtain ⟨hmiddle, hsame⟩ := hdb.pages hpages
    rw [ih hmiddle hrest (by rwa [hsame.tables.files]), settled_of_writeBack hdb hback hopened]

theorem Clean.writeAll_eq {db : Database} (h : db.Clean) (ids : List PageId) :
    writeAll ids db = .ok () db := by
  induction ids with
  | nil => rfl
  | cons id ids ih =>
    have hback : writeBack id db = .ok false db := by
      cases hcached : db.pool.page? id with
      | none => exact writeBack_of_missing hcached
      | some page => exact writeBack_of_clean hcached (h id page hcached)
    rw [writeAll_cons, Db.bind_run, hback]
    exact ih

/-- What a flush of all dirty pages leaves. -/
structure Flushed (db db' : Database) : Prop where
  /-- The same pages are cached, in the same order and in the same frames. -/
  outline : db'.pool.outline = db.pool.outline
  pages : ∀ id, db'.pool.page? id = (db.pool.page? id).map Page.markClean
  clean : db'.Clean
  /-- Each file has been written once for each of its dirty pages, and nothing has been read. -/
  written : ∀ table file, db.catalog.file table = .ok file → db'.trafficOf file =
    { reads := (db.trafficOf file).reads
      writes := (db.trafficOf file).writes + UInt32.ofNat (db.dirtyPages file).length }

theorem Clean.flushed {db : Database} (h : db.Clean) : Flushed db db := by
  constructor
  case outline => rfl
  case pages =>
    intro id
    cases hcached : db.pool.page? id with
    | none => rfl
    | some page => rw [Option.map_some, Page.markClean_of_clean (h id page hcached)]
  case clean => exact h
  case written =>
    intro table file _
    rw [h.dirtyPages_eq_nil file]
    exact congrArg (Traffic.mk _) (UInt32.add_zero _).symm

theorem Ready.writeAll_flushes {db : Database} (h : db.Ready)
    (hopened : ∀ table file, db.catalog.file table = .ok file → file.serial < db.traffic.length)
    {ids : List PageId}
    (hids : ∀ id page, db.pool.page? id = some page → page.isDirty = true → id ∈ ids) :
    ∃ db', writeAll ids db = .ok () db' ∧ Flushed db db' ∧ db'.Ready ∧ SameRows db db' ∧
      ∀ file, db.catalog.file file.id = .ok file → ∀ n,
        file.rowsOnDisk db'.volume n = db.rowsAt file n := by
  obtain ⟨db', hwrite⟩ := h.writeAll_ok ids
  have hpages := writeAll_pages ids db
  have hstill := still_writeAll ids db
  rw [after_of_ok hwrite] at hpages hstill
  obtain ⟨hready, hsame⟩ := h.pages hpages
  have hmarks (id : PageId) : db'.pool.page? id = (db.pool.page? id).map Page.markClean := by
    rw [page?_of_writeAll hwrite]
    split
    · rfl
    · next hout =>
      cases hcached : db.pool.page? id with
      | none => rfl
      | some page =>
        have hclean : page.isDirty = false := by
          cases hdirty : page.isDirty with
          | false => rfl
          | true => exact absurd (hids id page hcached hdirty) hout
        rw [Option.map_some, Page.markClean_of_clean hclean]
  have hclean : db'.Clean := by
    intro id page hcached
    rw [hmarks] at hcached
    obtain ⟨old, _, rfl⟩ := Option.map_eq_some_iff.mp hcached
    rfl
  refine ⟨db', hwrite, ⟨hstill.2, hmarks, hclean, fun table file hfile => ?_⟩, hready, hsame, ?_⟩
  · rw [← hclean.settled_eq, settled_of_writeAll h.coherent hwrite (hopened table file hfile)]
    rfl
  · intro file hfile n
    have hfile' : db'.catalog.file file.id = .ok file := by rwa [hsame.tables.catalog]
    rw [← hready.coherent.rowsAt_of_clean hfile' fun page hcached => hclean _ page hcached,
      hsame.rows file hfile]

end Database
end RowStore
