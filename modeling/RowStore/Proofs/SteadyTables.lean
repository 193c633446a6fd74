import RowStore.Proofs.Registrations
import RowStore.Proofs.Reopening

/-!
# Tables with clean pages as on disk

While a table keeps its columns, its clean pages show what is on disk, whatever happens to other tables
and to their names. So reading, writing back and evicting pages change nothing that readers see of the
table, and a page that can be fetched shows its entries.
-/
namespace RowStore
open Relation

namespace Database

/-- The table of the file keeps the file's columns, its pages can be numbered, and its clean pages are as
on disk. -/
structure Steady (file : TableFile) (db : Database) : Prop where
  serving : Serving file db
  small : file.pageTotal db.volume < UInt32.size
  clean : ∀ n page, db.pool.page? ⟨file.id, n⟩ = some page → page.isDirty = false →
    page.rows = file.rowsOnDisk db.volume n

section
variable {file : TableFile} {db db' : Database}

theorem rowsAt_congr {n : PageNo} (hpage : db'.pool.page? ⟨file.id, n⟩ = db.pool.page? ⟨file.id, n⟩)
    (hdisk : file.rowsOnDisk db'.volume n = file.rowsOnDisk db.volume n) :
    db'.rowsAt file n = db.rowsAt file n := by
  rw [rowsAt, rowsAt, hpage, hdisk]

theorem Serving.rowsOnDisk_writeBack (h : Serving file db) {id : PageId} (w : WriteBack db id)
    (n : PageNo) : file.rowsOnDisk w.result.volume n =
      if (⟨file.id, n⟩ : PageId) = id then w.page.rows else file.rowsOnDisk db.volume n := by
  -- The page goes to the file that is registered now, which may be another one over the same pages.
  have hlodged := h.housed.cached id w.page w.cached
  have hplace := w.place h.housed.orderly
  have hid : (⟨file.id, n⟩ : PageId) = id ↔ file.id = w.file.id ∧ n = w.page.id.number := by
    rw [← PageId.mk.injEq]
    exact ⟨fun hsame => hsame.trans hplace.symm, fun hsame => hsame.trans hplace⟩
  simp only [hid]
  change file.rowsOnDisk (w.file.pages.replace db.volume w.page.id.number w.image) n = _
  by_cases htable : file.id = w.file.id
  · have hagrees : w.page.schema.Agrees file.schema := by
      apply h.typed.cached id w.page w.cached
      rw [htable]
      exact congrArg PageId.table hplace.symm
    rw [← TableFile.pages_eq htable (h.size.trans (w.sized h.housed).symm),
      TableFile.rowsOnDisk_replace_of_agrees hlodged.shaped hagrees (hlodged.size.trans h.size.symm)
        w.encoded]
    simp only [htable, true_and]
  · rw [TableFile.rowsOnDisk_replace_other htable, if_neg fun hboth => htable hboth.1]

theorem Serving.rows_load (h : Serving file db) {n : PageNo} (load : Load db ⟨file.id, n⟩) :
    load.page.rows = file.rowsOnDisk db.volume n := by
  obtain ⟨_, _, _, hrows⟩ := load.lodged h.housed
  have hid : load.file.id = file.id := h.housed.named _ _ load.registered
  have hsize := h.housed.sized _ _ load.registered
  have hagrees : load.file.schema.Agrees file.schema := h.typed.registered _ _ load.registered rfl
  rw [hrows, TableFile.rowsOnDisk_congr (TableFile.pages_eq hid (hsize.trans h.size.symm)) hagrees]

/-- Readers see the table as before, and its clean pages are as on disk. -/
structure SameView (file : TableFile) (db db' : Database) : Prop where
  clean : ∀ n page, db'.pool.page? ⟨file.id, n⟩ = some page → page.isDirty = false →
    page.rows = file.rowsOnDisk db'.volume n
  rows : ∀ n, db'.rowsAt file n = db.rowsAt file n

theorem Steady.sameView_writeBack (h : Steady file db) {id : PageId} (w : WriteBack db id) :
    SameView file db w.result := by
  have hdisk := h.serving.rowsOnDisk_writeBack w
  constructor
  case clean =>
    intro n page hpage hclean
    rw [hdisk]
    rw [w.page?_result] at hpage
    split at hpage
    · next hid =>
      cases hpage
      rw [if_pos hid]
      rfl
    · next hid =>
      rw [if_neg hid]
      exact h.clean n page hpage hclean
  case rows =>
    intro n
    by_cases hid : (⟨file.id, n⟩ : PageId) = id
    · have hpage : w.result.pool.page? ⟨file.id, n⟩ = some w.page.markClean := by
        rw [w.page?_result, if_pos hid]
      have hcached : db.pool.page? ⟨file.id, n⟩ = some w.page := by rw [hid, w.cached]
      rw [rowsAt_of_cached hpage, rowsAt_of_cached hcached]
      rfl
    · apply rowsAt_congr
      · rw [w.page?_result, if_neg hid]
      · rw [hdisk, if_neg hid]

theorem Steady.sameView_evict (h : Steady file db) {id : PageId} {page : Page}
    (hcached : db.pool.page? id = some page) (hclean : page.isDirty = false) :
    SameView file db (db.without id) := by
  refine ⟨fun n found hfound => h.clean n found (page?_of_without hfound), fun n => ?_⟩
  have hdropped : (db.without id).pool.page? ⟨file.id, n⟩ =
    if (⟨file.id, n⟩ : PageId) = id then none else db.pool.page? ⟨file.id, n⟩ := Pool.page?_drop _ _ _
  by_cases hid : (⟨file.id, n⟩ : PageId) = id
  · subst hid
    rw [if_pos rfl] at hdropped
    rw [rowsAt_of_missing hdropped, rowsAt_of_cached hcached]
    exact (h.clean n page hcached hclean).symm
  · rw [if_neg hid] at hdropped
    exact rowsAt_congr hdropped rfl

theorem Steady.sameView_load (h : Steady file db) {id : PageId} (load : Load db id)
    (hmiss : db.pool.page? id = none) : SameView file db (db.holding load.page) := by
  have hheld (n : PageNo) : (db.holding load.page).pool.page? ⟨file.id, n⟩ =
      if (⟨file.id, n⟩ : PageId) = id then some load.page else db.pool.page? ⟨file.id, n⟩ := by
    rw [page?_holding, load.page_id]
  constructor
  case clean =>
    intro n found hfound hclean
    rw [hheld] at hfound
    split at hfound
    · next hid =>
      subst hid
      cases hfound
      exact h.serving.rows_load load
    · exact h.clean n found hfound hclean
  case rows =>
    intro n
    have hpage := hheld n
    by_cases hid : (⟨file.id, n⟩ : PageId) = id
    · subst hid
      rw [if_pos rfl] at hpage
      rw [rowsAt_of_cached hpage, rowsAt_of_missing hmiss]
      exact h.serving.rows_load load
    · rw [if_neg hid] at hpage
      exact rowsAt_congr hpage rfl

theorem Steady.turnover (h : Steady file db) (hstep : Turnover db db') :
    Steady file db' ∧ ∀ n, db'.rowsAt file n = db.rowsAt file n := by
  have hkept : SameView file db db' := by
    cases hstep with
    | read other => exact ⟨h.clean, fun _ => rfl⟩
    | writeBack w => exact h.sameView_writeBack w
    | evict hcached hclean => exact h.sameView_evict hcached hclean
    | load load hmiss => exact h.sameView_load load (page?_eq_none hmiss)
  refine ⟨⟨h.serving.turnovers (.single hstep), ?_, hkept.clean⟩, hkept.rows⟩
  rw [pageTotal_eq_extent (h.serving.turnovers (.single hstep)).size, (h.serving.housed.turnover hstep).2,
    ← pageTotal_eq_extent h.serving.size]
  exact h.small

theorem Steady.turnovers (h : Steady file db) (hsteps : ReflTransGen Turnover db db') :
    Steady file db' ∧ ∀ n, db'.rowsAt file n = db.rowsAt file n := by
  induction hsteps with
  | refl => exact ⟨h, fun _ => rfl⟩
  | tail _ hstep ih =>
    obtain ⟨hsteady, hrows⟩ := ih.1.turnover hstep
    exact ⟨hsteady, fun n => (hrows n).trans (ih.2 n)⟩

theorem Housed.extent_le_act (h : db.Housed) {accepts : Tuple → Prop} (hstep : Act accepts db db')
    (table : TableId) : db.extent table ≤ db'.extent table := by
  cases hstep with
  | turnover hturn => exact Nat.le_of_eq ((h.turnover hturn).2 table).symm
  | @append last hlast =>
    have hextent : (db.appending last (last.numPages db.volume)).extent table = _ :=
      extent_storing (h.sized _ _ hlast) _ List.length_replicate table
    rw [hextent]
    split
    · exact Nat.le_max_left _ _
    · exact Nat.le_refl _
  | insert | delete | discard => exact Nat.le_refl _

theorem Housed.extent_le_acts (h : db.Housed) {accepts : Tuple → Prop}
    (haccepts : ∀ t, accepts t → t.Complete) (hsteps : ReflTransGen (Act accepts) db db')
    (table : TableId) : db.extent table ≤ db'.extent table := by
  induction hsteps with
  | refl => exact Nat.le_refl _
  | tail hfirst hstep ih => exact Nat.le_trans ih ((h.acts haccepts hfirst).extent_le_act hstep table)

theorem Steady.clean_replacing (h : Steady file db) {id : PageId} {old page : Page}
    (hcached : db.pool.page? id = some old) (hdirty : page.isDirty = true) :
    ∀ n found, (db.replacing id page).pool.page? ⟨file.id, n⟩ = some found → found.isDirty = false →
      found.rows = file.rowsOnDisk db.volume n := by
  intro n found hfound hclean
  rw [page?_replacing hcached] at hfound
  split at hfound
  · cases hfound
    rw [hdirty] at hclean
    cases hclean
  · exact h.clean n found hfound hclean

theorem Steady.clean_append (h : Steady file db) {last : TableFile}
    (hlast : db.catalog.file last.id = .ok last) {n : PageNo} {page : Page}
    (hpage : db.pool.page? ⟨file.id, n⟩ = some page) (hclean : page.isDirty = false) :
    page.rows = file.rowsOnDisk (db.appending last (last.numPages db.volume)).volume n := by
  change _ = file.rowsOnDisk
    (last.pages.replace db.volume (last.numPages db.volume) (List.replicate last.pageSize 0)) n
  by_cases hid : file.id = last.id
  · have hsize : last.pageSize = file.pageSize := (h.serving.housed.sized _ _ hlast).trans h.serving.size.symm
    have hpages := TableFile.pages_eq hid hsize.symm
    have hnumber : n ≠ last.numPages db.volume := by
      have hcounted := (h.serving.housed.cached _ _ hpage).counted
      dsimp only at hcounted
      rw [← pageTotal_eq_extent h.serving.size, ← TableFile.numPages_toNat h.small] at hcounted
      have hsame : last.numPages db.volume = file.numPages db.volume := by
        rw [TableFile.numPages, TableFile.numPages, hpages]
      rw [hsame]
      rintro rfl
      exact Nat.lt_irrefl _ hcounted
    rw [← hpages, hsize, TableFile.rowsOnDisk_zeros, if_neg hnumber]
    exact h.clean n page hpage hclean
  · rw [TableFile.rowsOnDisk_replace_other hid]
    exact h.clean n page hpage hclean

/-- Every step keeps the clean pages as on disk, unless the file gets too long. -/
theorem Steady.act (h : Steady file db) {accepts : Tuple → Prop} (haccepts : ∀ t, accepts t → t.Complete)
    (hstep : Act accepts db db') (hsmall : file.pageTotal db'.volume < UInt32.size) : Steady file db' := by
  have hserving := h.serving.acts haccepts (.single hstep)
  cases hstep with
  | turnover hturn => exact (h.turnover hturn).1
  | insert txn _ hcached _ _ _ => exact ⟨hserving, hsmall, h.clean_replacing hcached rfl⟩
  | delete txn _ hcached _ => exact ⟨hserving, hsmall, h.clean_replacing hcached rfl⟩
  | append hlast => exact ⟨hserving, hsmall, fun n page => h.clean_append hlast⟩
  | discard id =>
    exact ⟨hserving, hsmall, fun n page hpage => h.clean n page (page?_of_without hpage)⟩

theorem Steady.acts (h : Steady file db) {accepts : Tuple → Prop} (haccepts : ∀ t, accepts t → t.Complete)
    (hsteps : ReflTransGen (Act accepts) db db') (hsmall : file.pageTotal db'.volume < UInt32.size) :
    Steady file db' := by
  induction hsteps with
  | refl => exact h
  | @tail middle last hfirst hstep ih =>
    have hmiddle := h.serving.acts haccepts hfirst
    have hlast := hmiddle.acts haccepts (.single hstep)
    refine (ih ?_).act haccepts hstep hsmall
    rw [pageTotal_eq_extent hlast.size] at hsmall
    rw [pageTotal_eq_extent hmiddle.size]
    exact Nat.lt_of_le_of_lt (hmiddle.housed.extent_le_act hstep file.id) hsmall

theorem Housed.extent_le_leaves {accepts : Tuple → Prop} (haccepts : ∀ t, accepts t → t.Complete)
    {use : Use} (huse : use.Edits accepts) (h : db.Housed) (table : TableId) :
    db.extent table ≤ (use.leaves db).extent table := by
  cases use with
  | create path name schema key =>
    rcases leaves_create_cases path name schema key db with
      ⟨opened, _, _, _, _, hleaves⟩ | ⟨_, hleaves⟩
    · rw [hleaves]
      exact Nat.le_of_eq (extent_registering db opened name key table).symm
    · exact Nat.le_of_eq (congrArg (extent · table) hleaves.symm)
  | call c => exact h.extent_le_acts haccepts (Call.leaves_acts haccepts huse h) table

theorem Steady.leaves (h : Steady file db) {accepts : Tuple → Prop}
    (haccepts : ∀ t, accepts t → t.Complete) {use : Use} (huse : use.Edits accepts)
    (hcolumns : use.Keeps (ColumnsOf file)) (hsmall : file.pageTotal (use.leaves db).volume < UInt32.size) :
    Steady file (use.leaves db) := by
  have hserving := h.serving.leaves haccepts huse hcolumns
  cases use with
  | create path name schema key =>
    rcases leaves_create_cases path name schema key db with
      ⟨opened, _, _, _, _, hleaves⟩ | ⟨_, hleaves⟩ <;> rw [hleaves] at hserving hsmall ⊢
    · refine ⟨hserving, hsmall, fun n page hpage hclean => ?_⟩
      change _ = file.rowsOnDisk (db.volume.touch opened.pages.name) n
      rw [TableFile.rowsOnDisk_of_bytes rfl rfl (Volume.bytes_touch _ _ _)]
      exact h.clean n page hpage hclean
    · exact h
  | call c => exact h.acts haccepts (Call.leaves_acts haccepts huse h.serving.housed) hsmall

theorem Serving.pageTotal_le_play (h : Serving file db) {uses : List Use}
    (huses : ∀ use ∈ uses, use.Edits Tuple.Built ∧ use.Keeps (ColumnsOf file)) :
    file.pageTotal db.volume ≤ file.pageTotal (play uses db).volume := by
  induction uses generalizing db with
  | nil => exact Nat.le_refl _
  | cons use uses ih =>
    obtain ⟨hedits, hkeeps⟩ := huses use List.mem_cons_self
    have hnext := h.leaves (fun _ => Tuple.Built.complete) hedits hkeeps
    have hfirst := h.housed.extent_le_leaves (fun _ => Tuple.Built.complete) hedits file.id
    rw [← pageTotal_eq_extent h.size, ← pageTotal_eq_extent hnext.size] at hfirst
    exact Nat.le_trans hfirst (ih hnext fun other hmem => huses other (List.mem_cons_of_mem _ hmem))

theorem Steady.play {uses : List Use}
    (huses : ∀ use ∈ uses, use.Edits Tuple.Built ∧ use.Keeps (ColumnsOf file)) (h : Steady file db)
    (hsmall : file.pageTotal (play uses db).volume < UInt32.size) : Steady file (play uses db) := by
  induction uses generalizing db with
  | nil => exact h
  | cons use uses ih =>
    obtain ⟨hedits, hkeeps⟩ := huses use List.mem_cons_self
    have hrest := fun other hmem => huses other (List.mem_cons_of_mem use hmem)
    have hnext := h.serving.leaves (fun _ => Tuple.Built.complete) hedits hkeeps
    have hlater : file.pageTotal (use.leaves db).volume < UInt32.size :=
      Nat.lt_of_le_of_lt (hnext.pageTotal_le_play hrest) hsmall
    exact ih hrest (h.leaves (fun _ => Tuple.Built.complete) hedits hkeeps hlater) hsmall

theorem serving_onVolume (config : Config) (volume : Volume) (hsize : file.pageSize = config.pageSize) :
    Serving file (onVolume config volume) :=
  ⟨housed_onVolume config volume, hsize, typed_onVolume config volume⟩

theorem steady_play {uses : List Use}
    (huses : ∀ use ∈ uses, use.Edits Tuple.Built ∧ use.Keeps (ColumnsOf file)) (config : Config)
    (volume : Volume) (hsize : file.pageSize = config.pageSize)
    (hsmall : file.pageTotal (play uses (onVolume config volume)).volume < UInt32.size) :
    Steady file (play uses (onVolume config volume)) := by
  have hserving := serving_onVolume config volume hsize
  refine Steady.play huses ⟨hserving, ?_, by rintro n page ⟨⟩⟩ hsmall
  exact Nat.lt_of_le_of_lt (hserving.pageTotal_le_play huses) hsmall

end
end Database
end RowStore
