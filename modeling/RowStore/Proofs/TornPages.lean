import RowStore.Proofs.DirtyMarks
import RowStore.Proofs.StoredCells
import RowStore.Proofs.Turnover

/-!
# Pages that differ from disk without a mark

A cached page without a mark should be what is on disk, since it is dropped without being written. A page
is torn where it is not. Paging tears no page: what it leaves torn was torn before and is still the same
page in the cache. The exception are pages that are cached in another size than the file of their table
has now, since their bytes are overwritten as parts of other pages.
-/
namespace RowStore
open Relation

namespace Page

theorem SameContents.rows_eq {page other : Page} (h : page.SameContents other) :
    page.rows = other.rows := by
  have hlength : page.rows.length = other.rows.length := by
    rw [length_rows, length_rows, h.numSlots]
  have hjoin (slot : Nat) : page.rows[slot]?.join = other.rows[slot]?.join := by
    rw [← map_fields_tuple?, ← map_fields_tuple?]
    have htuples := h.tuples slot
    generalize page.tuple? slot = stored at htuples
    generalize other.tuple? slot = stored' at htuples
    cases htuples with
    | none => rfl
    | some hrow =>
      obtain ⟨hsame, _⟩ := hrow
      simp only [Tuple.sameRow, Bool.and_eq_true, decide_eq_true_eq] at hsame
      exact congrArg some hsame.2
  apply List.ext_getElem hlength
  intro slot hslot hslot'
  have hrow := hjoin slot
  rwa [List.getElem?_eq_getElem hslot, List.getElem?_eq_getElem hslot', Option.join_some,
    Option.join_some] at hrow

theorem rows_eq_of_rel {page? other? : Option Page} (h : Option.Rel SameContents page? other?) :
    page?.map rows = other?.map rows := by
  cases h with
  | none => rfl
  | some hsame => exact congrArg some hsame.rows_eq

theorem Shaped.sameContents_iff {page other : Page} (h : page.Shaped) (hother : other.Shaped)
    (hid : page.id = other.id) (hagrees : page.schema.Agrees other.schema) :
    page.SameContents other ↔ page.rows = other.rows :=
  ⟨SameContents.rows_eq, h.sameContents hother hid hagrees⟩

/-- The bytes in the place of the page, as its own size and number have it. -/
def placeBytes (page : Page) (volume : Volume) : Bytes :=
  match page.id.table with
  | .file name => (⟨name, page.size⟩ : PageFile).image volume page.id.number
  | .number _ => []

/-- The page that is on disk in the place of the page, read with its own schema. -/
def onDisk (page : Page) (volume : Volume) : Page := stored page.id page.schema (page.placeBytes volume)

theorem onDisk_congr {page other : Page} (hid : other.id = page.id) (hschema : other.schema = page.schema)
    (hsize : other.size = page.size) (volume : Volume) : other.onDisk volume = page.onDisk volume := by
  rw [onDisk, onDisk, placeBytes, placeBytes, hid, hschema, hsize]

theorem Shaped.sameContents_onDisk_iff {page : Page} (h : page.Shaped) (volume : Volume) :
    (page.onDisk volume).SameContents page ↔ (page.onDisk volume).rows = page.rows :=
  (shaped_stored _ _ _).sameContents_iff h rfl rfl

theorem onDisk_replace_other {page : Page} {file : TableFile} {n : PageNo}
    (hsize : page.id.table = file.id → page.size = file.pageSize) (hother : page.id ≠ ⟨file.id, n⟩)
    (volume : Volume) {image : Bytes} (hlength : image.length = file.pageSize) :
    page.onDisk (file.pages.replace volume n image) = page.onDisk volume := by
  refine congrArg (stored page.id page.schema) ?_
  rw [placeBytes, placeBytes]
  cases htable : page.id.table with
  | number m => rfl
  | file name =>
    by_cases hname : name = file.pages.name
    · have hid : page.id.table = file.id := by rw [htable, hname]; rfl
      have hpages : (⟨name, page.size⟩ : PageFile) = file.pages := by rw [hname, hsize hid]; rfl
      dsimp only
      rw [hpages, PageFile.image_replace _ _ _ _ hlength, if_neg]
      intro hnumber
      apply hother
      rw [← hid, ← hnumber]
    · exact PageFile.image_replace_other hname _ _ _ _

end Page

namespace TableFile

theorem rows_onDisk {file : TableFile} {page : Page} (hid : page.id.table = file.id)
    (hagrees : page.schema.Agrees file.schema) (hsize : page.size = file.pageSize) (volume : Volume) :
    (page.onDisk volume).rows = file.rowsOnDisk volume page.id.number := by
  have hpages : (⟨file.pages.name, page.size⟩ : PageFile) = file.pages := by rw [hsize]; rfl
  have hbytes : page.placeBytes volume = file.pages.image volume page.id.number := by
    rw [Page.placeBytes, hid, id]
    dsimp only
    rw [hpages]
  have hread := Page.ofImage_eq page.id page.schema (page.placeBytes volume)
  have hfile := Page.ofImage_eq ⟨file.id, page.id.number⟩ file.schema (page.placeBytes volume)
  rw [Page.onDisk, Page.rows_ofImage_congr hagrees hfile hread, rowsOnDisk, pageOnDisk, ← hbytes, hfile]

end TableFile

namespace Database
variable {db db' : Database}

/-- The page is cached without a mark, and its contents are not those on disk. -/
def Torn (db : Database) (id : PageId) : Prop :=
  ∃ page, db.pool.page? id = some page ∧ page.isDirty = false ∧
    ¬ (page.onDisk db.volume).SameContents page

/-- The page is not cached in another size than the file of its table has. -/
def Fits (db : Database) (id : PageId) : Prop :=
  ∀ page file, db.pool.page? id = some page → db.catalog.file id.table = .ok file →
    page.size = file.pageSize

theorem not_torn_of_missing {id : PageId} (h : db.pool.page? id = none) : ¬ db.Torn id := by
  rintro ⟨page, hcached, _⟩
  rw [h] at hcached
  cases hcached

theorem torn_iff_of_cached {id : PageId} {page : Page} (h : db.pool.page? id = some page) :
    db.Torn id ↔ page.isDirty = false ∧ ¬ (page.onDisk db.volume).SameContents page := by
  constructor
  · rintro ⟨found, hfound, htorn⟩
    rw [h] at hfound
    cases hfound
    exact htorn
  · exact fun htorn => ⟨page, h, htorn⟩

theorem torn_of_rows {id : PageId} (h : (db.pool.page? id).any (fun page =>
    !page.isDirty && (page.onDisk db.volume).rows != page.rows) = true) : db.Torn id := by
  obtain ⟨page, hcached, hpage⟩ := (Option.any_eq_true _ _).mp h
  rw [Bool.and_eq_true, Bool.not_eq_true', bne_iff_ne] at hpage
  exact ⟨page, hcached, hpage.1, fun hsame => hpage.2 hsame.rows_eq⟩

theorem fits_of_sizes {id : PageId} (h : (db.pool.page? id).map Page.size =
    (db.catalog.file id.table).toOption.map TableFile.pageSize) : db.Fits id := by
  intro page file hcached hfile
  rw [hcached, hfile] at h
  exact Option.some.inj h

theorem torn_of_same {id : PageId} (hpool : db'.pool.page? id = db.pool.page? id)
    (hdisk : ∀ page, db.pool.page? id = some page → page.onDisk db'.volume = page.onDisk db.volume)
    (htorn : db'.Torn id) : db.Torn id := by
  obtain ⟨page, hcached, hclean, hdiffers⟩ := htorn
  rw [hpool] at hcached
  rw [hdisk page hcached] at hdiffers
  exact ⟨page, hcached, hclean, hdiffers⟩

theorem Fits.of_same {id : PageId} (h : db.Fits id) (hcatalog : db'.catalog = db.catalog)
    (hpool : db'.pool.page? id = db.pool.page? id) : db'.Fits id := by
  intro page file hcached hfile
  rw [hpool] at hcached
  rw [hcatalog] at hfile
  exact h page file hcached hfile

theorem WriteBack.not_torn {id : PageId} (w : WriteBack db id) (h : db.Orderly) : ¬ w.result.Torn id := by
  have hwithin := h.cached id w.page w.cached
  have hcached := w.page?_result id
  rw [if_pos rfl] at hcached
  rw [torn_iff_of_cached hcached, not_and, Classical.not_not]
  intro _
  have hdisk : w.page.markClean.onDisk w.result.volume = Page.stored w.page.id w.page.schema w.image := by
    refine congrArg (Page.stored w.page.id w.page.schema) ?_
    have hpages : (⟨w.file.pages.name, w.page.size⟩ : PageFile) = w.file.pages := by
      rw [w.page_size h]
      rfl
    change (match w.page.id.table with
      | .file name => (⟨name, w.page.size⟩ : PageFile).image w.result.volume w.page.id.number
      | .number _ => []) = _
    rw [w.home, TableFile.id]
    dsimp only
    rw [hpages]
    exact (PageFile.image_replace _ _ _ _ w.length).trans (if_pos rfl)
  obtain ⟨_, hback⟩ := hwithin.shaped.rows_ofImage w.encoded
  obtain ⟨stored, hstored, hrows⟩ := hback w.page.id
  rw [Page.ofImage_eq] at hstored
  cases hstored
  rw [hwithin.shaped.markClean.sameContents_onDisk_iff, hdisk, hrows, Page.rows_markClean]

theorem Load.onDisk_eq {id : PageId} (load : Load db id) : load.page.onDisk db.volume = load.page := by
  have hparsed := load.parsed
  have hid := load.page_id
  have htable := (TableFile.checkPage_eq_ok.mp load.counted).1
  rw [TableFile.pageOnDisk, Page.ofImage_eq, Except.ok.injEq] at hparsed
  have hsize : load.page.size = load.file.pageSize := by
    rw [← hparsed]
    exact PageFile.length_image _ _ _
  have hschema : load.page.schema = load.file.schema := by rw [← hparsed]; rfl
  have hbytes : load.page.placeBytes db.volume = load.file.pages.image db.volume id.number := by
    rw [Page.placeBytes, hid, htable, TableFile.id, hsize]
    rfl
  rw [Page.onDisk, hbytes, hschema, hid, ← hparsed, ← htable]

theorem Turnover.torn (h : db.Orderly) (hstep : Turnover db db') {id : PageId} (hfits : db'.Fits id)
    (htorn : db'.Torn id) : db.Torn id ∧ db'.pool.page? id = db.pool.page? id := by
  cases hstep with
  | read file => exact ⟨torn_of_same rfl (fun _ _ => rfl) htorn, rfl⟩
  | @writeBack victim w =>
    have hne : id ≠ victim := by
      rintro rfl
      exact w.not_torn h htorn
    have hpool : w.result.pool.page? id = db.pool.page? id := by rw [w.page?_result, if_neg hne]
    refine ⟨torn_of_same hpool (fun page hcached => ?_) htorn, hpool⟩
    have hid := (h.cached id page hcached).identified
    apply Page.onDisk_replace_other _ _ _ w.length
    · intro htable
      rw [hid] at htable
      exact hfits page w.file (hpool.trans hcached) (by rw [htable]; exact h.registered w.registered)
    · rw [w.place h, hid]
      exact hne
  | @evict victim page hcached hclean =>
    by_cases hid : id = victim
    · refine absurd htorn (not_torn_of_missing ?_)
      change (db.pool.drop victim).page? id = none
      rw [Pool.page?_drop, if_pos hid]
    · have hpool : (db.without victim).pool.page? id = db.pool.page? id := by
        change (db.pool.drop victim).page? id = _
        rw [Pool.page?_drop, if_neg hid]
      exact ⟨torn_of_same hpool (fun _ _ => rfl) htorn, hpool⟩
  | @load loaded load hmiss hroom =>
    have hpool : (db.holding load.page).pool.page? id =
        if id = load.page.id then some load.page else db.pool.page? id := page?_holding _ _
    by_cases hid : id = load.page.id
    · rw [if_pos hid] at hpool
      obtain ⟨_, hdiffers⟩ := (torn_iff_of_cached hpool).mp htorn
      change ¬ (load.page.onDisk db.volume).SameContents load.page at hdiffers
      rw [load.onDisk_eq] at hdiffers
      exact absurd (.refl _) hdiffers
    · rw [if_neg hid] at hpool
      exact ⟨torn_of_same hpool (fun _ _ => rfl) htorn, hpool⟩

theorem torn_of_turnovers (h : db.Orderly) (hsteps : ReflTransGen Turnover db db') {id : PageId}
    (hfits : db'.Fits id) (htorn : db'.Torn id) : db.Torn id ∧ db'.pool.page? id = db.pool.page? id := by
  induction hsteps with
  | refl => exact ⟨htorn, rfl⟩
  | @tail middle last hfirst hstep ih =>
    obtain ⟨hmiddle, hlast⟩ := hstep.torn (h.turnovers hfirst) hfits htorn
    obtain ⟨hdb, hpool⟩ := ih (hfits.of_same hstep.sameSetup.catalog.symm hlast.symm) hmiddle
    exact ⟨hdb, hlast.trans hpool⟩

end Database
end RowStore
