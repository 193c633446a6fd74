import RowStore.Proofs.CallSteps

/-!
# Labels of pages

Every cached page is kept under its own name, lies inside its file, and has tuples that carry the
records of their slots. This asks nothing of cache and disk and nothing of the length of the files, and
all calls that edit tuples keep it. A page that was read and is at rest stays what it is while other
pages are fetched, whether it stays cached or not.
-/
namespace RowStore

/-- The page has that name, and its tuples carry the records of their slots. -/
structure Page.Labelled (id : PageId) (page : Page) : Prop where
  identified : page.id = id
  slots : page.numSlots ≤ Layout.maxSlots
  stored : ∀ slot t, page.tuple? slot = some t → t.record = some (page.record slot)

namespace Page
open Database

theorem WellFormed.labelled {file : TableFile} {page : Page} (h : page.WellFormed file) :
    page.Labelled page.id := by
  refine ⟨rfl, ?_, fun slot t ht => (h.stored slot t ht).2.2⟩
  rw [h.slots]
  exact file.slotCount_le

namespace Labelled
variable {id : PageId} {page page' : Page}

theorem markDirty (h : page.Labelled id) (txn : TransactionId) : (page.markDirty txn).Labelled id :=
  ⟨h.identified, h.slots, h.stored⟩

theorem markClean (h : page.Labelled id) : page.markClean.Labelled id :=
  ⟨h.identified, h.slots, h.stored⟩

theorem fill (h : page.Labelled id) {slot : Nat} (hslot : slot < page.numSlots) (t : Tuple) :
    (page.fill slot t).Labelled id := by
  refine ⟨h.identified, ?_, forall_tuple?_fill h.stored hslot rfl⟩
  rw [numSlots_fill]
  exact h.slots

theorem free (h : page.Labelled id) (slot : Nat) : (page.free slot).Labelled id := by
  refine ⟨h.identified, ?_, forall_tuple?_free h.stored slot⟩
  rw [numSlots_free]
  exact h.slots

theorem insertEdit (h : page.Labelled id) {t : Tuple} (hedit : insertEdit t page = .ok () page') :
    page'.Labelled id := by
  obtain ⟨_, slot, hslot, rfl⟩ := insertEdit_eq_ok.mp hedit
  exact h.fill ((freeSlot?_eq_some_iff page slot).mp hslot).1 t

theorem delete (h : page.Labelled id) {t : Tuple} (hedit : Page.delete t page = .ok () page') :
    page'.Labelled id := by
  obtain ⟨record, _, _, _, rfl⟩ := delete_eq_ok.mp hedit
  exact h.free _

end Labelled
end Page

namespace Database

/-- The page may be cached under that name. -/
def InPlace (db : Database) (id : PageId) (page : Page) : Prop :=
  page.Labelled id ∧ ∀ file, db.catalog.file id.table = .ok file →
    id.number.toNat < file.pageTotal db.volume

/-- Every cached page is in its place. -/
structure Labelled (db : Database) : Prop where
  named : ∀ table file, db.catalog.file table = .ok file → file.id = table
  cached : ∀ id page, db.pool.page? id = some page → db.InPlace id page

/-- The clean page is on disk, and nothing else is cached in its place. -/
structure Resting (db : Database) (id : PageId) (page : Page) : Prop where
  onDisk : db.pageOnDisk? id = some page
  clean : page.isDirty = false
  cached : ∀ other, db.pool.page? id = some other → other = page

/-- The same tables are registered, and no file is shorter. -/
structure Grown (db db' : Database) : Prop where
  catalog : db'.catalog = db.catalog
  pages : ∀ file, db.catalog.file file.id = .ok file →
    file.pageTotal db.volume ≤ file.pageTotal db'.volume

/-- What a fetch of the page does to the others: it caches none of them, and those at rest stay so. -/
structure Turned (loaded : PageId) (db db' : Database) : Prop where
  labelled : db'.Labelled
  grown : Grown db db'
  kept : ∀ id page, id ≠ loaded → db'.pool.page? id = some page → db.pool.page? id = some page
  resting : ∀ id page, db.Resting id page → db'.Resting id page

theorem Fresh.labelled {db : Database} (h : db.Fresh) : db.Labelled := by
  refine ⟨h.named, fun id page hcached => ?_⟩
  rw [h.pool] at hcached
  cases hcached

theorem Resting.page?_eq {db : Database} {id : PageId} {page : Page} (h : db.Resting id page) :
    db.page? id = some page := by
  cases hcached : db.pool.page? id with
  | some other =>
    rw [page?_of_cached hcached, h.cached other hcached]
  | none => rw [page?, hcached, Option.none_or, h.onDisk]

theorem Grown.of_volume {db db' : Database} (hcatalog : db'.catalog = db.catalog)
    (hvolume : db'.volume = db.volume) : Grown db db' :=
  ⟨hcatalog, fun _ _ => hvolume ▸ Nat.le_refl _⟩

theorem Grown.trans {a b c : Database} (hab : Grown a b) (hbc : Grown b c) : Grown a c := by
  refine ⟨hbc.catalog.trans hab.catalog, fun file hfile => ?_⟩
  exact Nat.le_trans (hab.pages file hfile) (hbc.pages file (by rwa [hab.catalog]))

theorem Turned.trans {loaded : PageId} {a b c : Database} (hab : Turned loaded a b)
    (hbc : Turned loaded b c) : Turned loaded a c := by
  constructor
  case labelled => exact hbc.labelled
  case grown => exact hab.grown.trans hbc.grown
  case kept =>
    intro id page hid hcached
    exact hab.kept id page hid (hbc.kept id page hid hcached)
  case resting =>
    intro id page hrest
    exact hbc.resting id page (hab.resting id page hrest)

theorem Turned.refl {db : Database} (h : db.Labelled) (loaded : PageId) : Turned loaded db db :=
  ⟨h, .of_volume rfl rfl, fun _ _ _ hcached => hcached, fun _ _ hrest => hrest⟩

variable {db db' : Database}

theorem Labelled.inPlace (h : db.Labelled) (hgrown : Grown db db') {id : PageId} {page : Page}
    (hpage : db.InPlace id page) : db'.InPlace id page := by
  refine ⟨hpage.1, fun file hfile => ?_⟩
  rw [hgrown.catalog] at hfile
  have hid := h.named _ _ hfile
  exact Nat.lt_of_lt_of_le (hpage.2 file hfile) (hgrown.pages file (by rwa [hid]))

theorem Labelled.of_inPlace (h : db.Labelled) (hgrown : Grown db db')
    (hcached : ∀ id page, db'.pool.page? id = some page → db.InPlace id page) : db'.Labelled := by
  constructor
  case named =>
    rw [hgrown.catalog]
    exact h.named
  case cached =>
    intro id page hpage
    exact h.inPlace hgrown (hcached id page hpage)

theorem Labelled.countTransfer (h : db.Labelled) (file : TableFile) (change : Traffic → Traffic) :
    (db.countTransfer file change).Labelled :=
  h.of_inPlace (.of_volume rfl rfl) h.cached

theorem grown_storing {file : TableFile} (hfile : db.catalog.file file.id = .ok file) (n : PageNo)
    {image : Bytes} (hlength : image.length = file.pageSize) : Grown db (db.storing file n image) := by
  refine ⟨rfl, fun other hother => ?_⟩
  change _ ≤ other.pageTotal (file.pages.replace db.volume n image)
  by_cases hid : other.id = file.id
  · rw [hid, hfile] at hother
    cases hother
    rw [TableFile.pageTotal_replace hlength]
    exact Nat.le_max_left _ _
  · exact Nat.le_of_eq (TableFile.pageTotal_replace_other hid _ _ _).symm

theorem pageOnDisk?_storing (h : db.Labelled) {file : TableFile}
    (hfile : db.catalog.file file.id = .ok file) {n : PageNo} (hn : n.toNat < file.pageTotal db.volume)
    {image : Bytes} (hlength : image.length = file.pageSize) {id : PageId} (hother : id ≠ ⟨file.id, n⟩) :
    (db.storing file n image).pageOnDisk? id = db.pageOnDisk? id := by
  have hcatalog : (db.storing file n image).catalog = db.catalog := rfl
  rw [pageOnDisk?, pageOnDisk?, hcatalog]
  cases hfound : db.catalog.file id.table with
  | error e => rfl
  | ok found =>
    suffices hsame : found.numPages (db.storing file n image).volume = found.numPages db.volume ∧
        found.pages.image (db.storing file n image).volume id.number =
          found.pages.image db.volume id.number by
      simp only [TableFile.checkPage, TableFile.pageOnDisk, hsame.1, hsame.2]
    have hnamed := h.named _ _ hfound
    change found.numPages (file.pages.replace db.volume n image) = _ ∧
      found.pages.image (file.pages.replace db.volume n image) _ = _
    by_cases hid : found.id = file.id
    · rw [← hnamed, hid, hfile] at hfound
      cases hfound
      have hnumber : id.number ≠ n := by
        rintro rfl
        exact hother (by rw [hnamed])
      have htotal := TableFile.pageTotal_replace hlength db.volume n
      rw [Nat.max_eq_left hn] at htotal
      exact ⟨congrArg UInt32.ofNat htotal, by rw [PageFile.image_replace _ _ _ _ hlength, if_neg hnumber]⟩
    · have hname : found.pages.name ≠ file.pages.name := fun hname => hid (congrArg TableId.file hname)
      have htotal := TableFile.pageTotal_replace_other hid db.volume n image
      exact ⟨congrArg UInt32.ofNat htotal, PageFile.image_replace_other hname _ _ _ _⟩

theorem Labelled.storing (h : db.Labelled) {file : TableFile}
    (hfile : db.catalog.file file.id = .ok file) (n : PageNo) {image : Bytes}
    (hlength : image.length = file.pageSize) : (db.storing file n image).Labelled :=
  h.of_inPlace (grown_storing hfile n hlength) h.cached

theorem WriteBack.own {id : PageId} (w : WriteBack db id) : db.catalog.file w.file.id = .ok w.file := by
  rw [← w.home]
  exact w.registered

theorem WriteBack.grown {id : PageId} (w : WriteBack db id) : Grown db w.result :=
  ⟨rfl, (grown_storing w.own w.page.id.number w.length).pages⟩

theorem Labelled.writeBack (h : db.Labelled) {id : PageId} (w : WriteBack db id) :
    w.result.Labelled := by
  apply h.of_inPlace w.grown
  intro other page hpage
  rw [w.page?_result] at hpage
  split at hpage
  · next hid =>
    cases hpage
    obtain ⟨hlabelled, hcounted⟩ := h.cached id w.page w.cached
    rw [hid]
    exact ⟨hlabelled.markClean, hcounted⟩
  · exact h.cached other page hpage

theorem page?_of_without {id other : PageId} {page : Page}
    (h : (db.without id).pool.page? other = some page) : db.pool.page? other = some page := by
  change (db.pool.drop id).page? other = some page at h
  rw [Pool.page?_drop] at h
  split at h
  · cases h
  · exact h

theorem Labelled.without (h : db.Labelled) (id : PageId) : (db.without id).Labelled :=
  h.of_inPlace (.of_volume rfl rfl) fun other page hpage =>
    h.cached other page (page?_of_without hpage)

theorem page?_holding (page : Page) (other : PageId) :
    (db.holding page).pool.page? other = if other = page.id then some page else db.pool.page? other :=
  Pool.page?_install _ _ _

theorem Labelled.holding (h : db.Labelled) {page : Page} (hpage : db.InPlace page.id page) :
    (db.holding page).Labelled := by
  refine h.of_inPlace (.of_volume rfl rfl) fun id other hother => ?_
  rw [page?_holding] at hother
  split at hother
  · next hid =>
    cases hother
    rwa [hid]
  · exact h.cached id other hother

theorem Labelled.replacing (h : db.Labelled) {id : PageId} {old page : Page}
    (hcached : db.pool.page? id = some old) (hpage : page.Labelled id) :
    (db.replacing id page).Labelled := by
  refine h.of_inPlace (.of_volume rfl rfl) fun other found hfound => ?_
  rw [page?_replacing hcached] at hfound
  split at hfound
  · next hid =>
    cases hfound
    rw [hid]
    exact ⟨hpage, (h.cached id old hcached).2⟩
  · exact h.cached other found hfound

theorem Resting.writeBack {id victim : PageId} {page : Page} (h : db.Labelled) (w : WriteBack db victim)
    (hrest : db.Resting id page) : w.result.Resting id page := by
  have hother : id ≠ victim := by
    rintro rfl
    have hclean := hrest.clean
    rw [← hrest.cached w.page w.cached, w.dirty] at hclean
    cases hclean
  obtain ⟨hlabelled, hcounted⟩ := h.cached victim w.page w.cached
  constructor
  case onDisk =>
    have hfile := w.registered
    rw [hlabelled.identified] at hfile
    have hnumber : w.page.id.number.toNat < w.file.pageTotal db.volume := by
      rw [hlabelled.identified]
      exact hcounted w.file hfile
    rw [← hrest.onDisk]
    apply pageOnDisk?_storing h w.own hnumber w.length
    rwa [← w.home, hlabelled.identified]
  case clean => exact hrest.clean
  case cached =>
    intro other hcached
    rw [w.page?_result, if_neg hother] at hcached
    exact hrest.cached other hcached

theorem Resting.without {id : PageId} {page : Page} (h : db.Resting id page) (dropped : PageId) :
    (db.without dropped).Resting id page :=
  ⟨h.onDisk, h.clean, fun other hcached => h.cached other (page?_of_without hcached)⟩

theorem Resting.holding {id : PageId} {page loaded : Page} (h : db.Resting id page)
    (hloaded : db.Resting loaded.id loaded) : (db.holding loaded).Resting id page := by
  refine ⟨h.onDisk, h.clean, fun other hcached => ?_⟩
  rw [page?_holding] at hcached
  split at hcached
  · next hid =>
    cases hcached
    have hdisk := h.onDisk
    rw [hid, hloaded.onDisk] at hdisk
    exact Option.some.inj hdisk
  · exact h.cached other hcached

theorem Load.resting {id : PageId} (load : Load db id) (hmiss : db.pool.frames.get? id = none) :
    load.read.Resting id load.page := by
  obtain ⟨page, hpage, _, hclean, _⟩ := load.file.pageOnDisk_eq_ok db.volume id.number
  rw [load.parsed] at hpage
  cases hpage
  refine ⟨?_, hclean, fun other hcached => ?_⟩
  · exact pageOnDisk?_of_readPage load.registered (readPage_of_counted load.counted load.parsed)
  · change db.pool.page? id = some other at hcached
    rw [Pool.page?, hmiss] at hcached
    cases hcached

theorem Load.inPlace {id : PageId} (load : Load db id) : db.InPlace id load.page := by
  obtain ⟨page, hpage, _, _, hformed, _⟩ := load.file.pageOnDisk_eq_ok db.volume id.number
  rw [load.parsed] at hpage
  cases hpage
  have hlabelled := hformed.labelled
  rw [load.page_id] at hlabelled
  refine ⟨hlabelled, fun file hfile => ?_⟩
  rw [load.registered] at hfile
  cases hfile
  exact (TableFile.number_lt_of_checkPage load.counted).2

theorem Labelled.turned_makeRoom (h : db.Labelled) (loaded : PageId) (hroom : makeRoom db = .ok () db') :
    Turned loaded db db' := by
  by_cases hfull : db.pool.capacity ≤ db.pool.size
  · rw [makeRoom_of_full hfull] at hroom
    rcases evict_cases db with ⟨victim, _, _, ⟨_, hevict⟩ | ⟨w, hevict⟩⟩ | ⟨e, hevict⟩ <;>
      rw [hevict] at hroom <;> cases hroom
    · exact ⟨h.without victim, .of_volume rfl rfl, fun _ _ _ hcached => page?_of_without hcached,
        fun _ _ hrest => hrest.without victim⟩
    · refine ⟨(h.writeBack w).without victim, w.grown.trans (.of_volume rfl rfl),
        fun id page _ hcached => ?_, fun _ _ hrest => (hrest.writeBack h w).without victim⟩
      change (w.result.pool.drop victim).page? id = some page at hcached
      rw [Pool.page?_drop] at hcached
      split at hcached
      · cases hcached
      · next hother =>
        rwa [w.page?_result, if_neg hother] at hcached
  · rw [makeRoom_of_room (Nat.not_le.mp hfull)] at hroom
    cases hroom
    exact .refl h loaded

theorem Labelled.fetched (h : db.Labelled) {id : PageId} {frame : Frame}
    (hfetch : fetch id db = .ok frame db') :
    Turned id db db' ∧ frame.page.Labelled id ∧ db'.pool.page? id = some frame.page ∧
      (db.pool.page? id = some frame.page ∨ db'.Resting id frame.page) := by
  rcases fetch_cases id db with ⟨found, hcached, hfound⟩ | ⟨hmiss, load, middle, hroom, hfound⟩ |
    ⟨e, hfound⟩ | ⟨file, e, hfound⟩ <;> rw [hfound] at hfetch <;> cases hfetch
  · have hpage : db.pool.page? id = some frame.page := by rw [Pool.page?, hcached, Option.map_some]
    exact ⟨.refl h id, (h.cached id _ hpage).1, hpage, Or.inl hpage⟩
  · have hid := load.page_id
    have hread : load.read.Labelled := h.countTransfer load.file Traffic.countRead
    have hcounted : Turned id db load.read :=
      ⟨hread, .of_volume rfl rfl, fun _ _ _ hcached => hcached,
        fun _ _ hrest => ⟨hrest.onDisk, hrest.clean, hrest.cached⟩⟩
    have hturned := hcounted.trans (hread.turned_makeRoom id hroom)
    have hplace : middle.InPlace load.page.id load.page := by
      rw [hid]
      exact h.inPlace hturned.grown load.inPlace
    have hloaded : middle.Resting load.page.id load.page := by
      rw [hid]
      exact (hread.turned_makeRoom id hroom).resting id load.page (load.resting hmiss)
    have hcached : (middle.holding load.page).pool.page? id = some load.page := by
      rw [page?_holding, if_pos hid.symm]
    refine ⟨⟨hturned.labelled.holding hplace, hturned.grown.trans (.of_volume rfl rfl), ?_, ?_⟩,
      load.inPlace.1, hcached, Or.inr ?_⟩
    · intro other page hother hcached
      change (middle.holding load.page).pool.page? other = some page at hcached
      rw [page?_holding, if_neg (by rwa [hid])] at hcached
      exact hturned.kept other page hother hcached
    · intro other page hother
      exact (hturned.resting other page hother).holding hloaded
    · have hrest := hloaded.holding hloaded
      rw [hid] at hrest
      exact hrest

theorem Labelled.fetch (h : db.Labelled) (id : PageId) : (after (fetch id) db).Labelled := by
  cases hfetch : Database.fetch id db with
  | ok frame db' =>
    rw [after_of_ok hfetch]
    exact (h.fetched hfetch).1.labelled
  | error e db' =>
    rw [after_of_error hfetch]
    rcases fetch_cases id db with ⟨frame, _, hfound⟩ | ⟨_, load, middle, _, hfound⟩ | ⟨e, hfound⟩ |
      ⟨file, e, hfound⟩ <;> rw [hfound] at hfetch <;> cases hfetch
    · exact h
    · exact h.countTransfer file _

theorem Labelled.update (h : db.Labelled) (txn : TransactionId) (id : PageId) {edit : PageEdit Unit}
    (hok : ∀ page page', edit page = .ok () page' → page.Labelled id → page'.Labelled id)
    (herror : ∀ e page page', edit page = .error e page' → page' = page) :
    (after (update txn id edit) db).Labelled := by
  have hfetched := h.fetch id
  cases hfetch : Database.fetch id db with
  | error e middle =>
    rw [after_of_error hfetch] at hfetched
    rwa [after_of_error (update_of_fetch_error hfetch txn edit)]
  | ok frame middle =>
    obtain ⟨hturned, hlabelled, hcached, _⟩ := h.fetched hfetch
    cases hedit : edit frame.page with
    | ok _ page =>
      rw [after_of_ok (update_of_edit_ok hfetch hedit txn)]
      exact hturned.labelled.replacing hcached ((hok _ _ hedit hlabelled).markDirty txn)
    | error e page =>
      rw [after_of_error (update_of_edit_error hfetch hedit txn), herror e _ _ hedit]
      exact hturned.labelled.replacing hcached hlabelled

theorem Labelled.update_insert (h : db.Labelled) (txn : TransactionId) (id : PageId) (t : Tuple) :
    (after (Database.update txn id (insertEdit t)) db).Labelled :=
  h.update txn id (fun _ _ hedit hpage => hpage.insertEdit hedit)
    fun _ _ _ hedit => Page.insertEdit_eq_error hedit

theorem Labelled.insertAmong {file : TableFile} (txn : TransactionId) (t : Tuple) (page left : Nat)
    {db : Database} (h : db.Labelled) (hfile : db.catalog.file file.id = .ok file) :
    (after (insertAmong file txn t page left) db).Labelled := by
  induction left generalizing page db with
  | zero =>
    rw [after_congr (insertAmong_zero file txn t page db), after_updateList]
    exact (h.storing hfile _ List.length_replicate).update_insert txn _ t
  | succ left ih =>
    have hfetched := h.fetch ⟨file.id, UInt32.ofNat page⟩
    rw [after, insertAmong_succ]
    cases hfetch : Database.fetch ⟨file.id, UInt32.ofNat page⟩ db with
    | error e middle =>
      rw [after_of_error hfetch] at hfetched
      exact hfetched
    | ok frame middle =>
      rw [after_of_ok hfetch] at hfetched
      by_cases hfree : 0 < frame.page.numEmptySlots
      · simp only [hfree, if_true]
        have hupdate := hfetched.update_insert txn ⟨file.id, UInt32.ofNat page⟩ t
        rwa [← after_updateList] at hupdate
      · simp only [hfree, if_false]
        apply ih (page + 1) hfetched
        rwa [(h.fetched hfetch).1.grown.catalog]

theorem Labelled.insertTuple (h : db.Labelled) (txn : TransactionId) (table : TableId) (t : Tuple) :
    (after (insertTuple txn table t) db).Labelled := by
  cases hfile : db.catalog.file table with
  | error e => rwa [after_of_error (insertTuple_of_missing txn t hfile)]
  | ok file =>
    have hinsert := insertTuple_eq txn t hfile
    by_cases hagrees : t.schema.Agrees file.schema
    · rw [if_pos hagrees] at hinsert
      rw [after_unanswered hinsert]
      exact h.insertAmong txn t 0 _ (by rwa [h.named _ _ hfile])
    · rw [if_neg hagrees] at hinsert
      rwa [after_of_error hinsert]

theorem Labelled.deleteTuple (h : db.Labelled) (txn : TransactionId) (t : Tuple) :
    (after (deleteTuple txn t) db).Labelled := by
  cases hrecord : t.record with
  | none => rwa [after_of_error (deleteTuple_of_noRecord txn hrecord db)]
  | some record =>
    cases hfile : db.catalog.file record.page.table with
    | error e => rwa [after_of_error (deleteTuple_of_missing txn hrecord hfile)]
    | ok file =>
      have hdelete := deleteTuple_eq txn hrecord hfile
      cases hcheck : file.checkPage db.volume record.page with
      | error e =>
        rw [hcheck] at hdelete
        rwa [after_of_error hdelete]
      | ok _ =>
        rw [hcheck] at hdelete
        rw [after_unanswered hdelete]
        exact h.update txn record.page (fun _ _ hedit hpage => hpage.delete hedit)
          fun _ _ _ hedit => Page.delete_eq_error hedit

theorem Labelled.after_writeBack (h : db.Labelled) (id : PageId) :
    (after (Database.writeBack id) db).Labelled := by
  rcases writeBack_cases id db with ⟨hback, _⟩ | ⟨w, hback⟩ | ⟨e, hback⟩
  · rwa [after_of_ok hback]
  · rw [after_of_ok hback]
    exact h.writeBack w
  · rwa [after_of_error hback]

theorem Labelled.writeAll (ids : List PageId) {db : Database} (h : db.Labelled) :
    (after (writeAll ids) db).Labelled := by
  induction ids generalizing db with
  | nil => exact h
  | cons id ids ih =>
    have hfirst := h.after_writeBack id
    rw [writeAll_cons, after_bind]
    cases hback : Database.writeBack id db with
    | ok _ middle =>
      rw [after_of_ok hback] at hfirst
      exact ih hfirst
    | error e middle =>
      rw [after_of_error hback] at hfirst
      exact hfirst

theorem Labelled.foldl_without (ids : List PageId) {db : Database} (h : db.Labelled) :
    (ids.foldl Database.without db).Labelled := by
  induction ids generalizing db with
  | nil => exact h
  | cons id ids ih => exact ih (h.without id)

end Database

namespace Call
open Database

theorem leaves_labelled {call : Call} (hcall : call.EditsTuples) {db : Database} (h : db.Labelled) :
    (call.leaves db).Labelled := by
  cases call with
  | fetch id =>
    rw [leaves, perform, after_ignored]
    exact h.fetch id
  | insert txn table t => exact h.insertTuple txn table t
  | delete txn t => exact h.deleteTuple txn t
  | update txn id edit => exact hcall.elim
  | flushPage id =>
    rw [leaves, perform, after_ignored, after_flushPage]
    exact h.after_writeBack id
  | flushTransaction txn => exact h.writeAll _
  | flushAll => exact h.writeAll _
  | flushList ids => exact h.writeAll ids
  | discard id => exact h.without id
  | complete txn commit =>
    cases commit with
    | true => exact h.writeAll _
    | false =>
      rw [leaves, perform, after_of_ok (complete_abort txn db)]
      exact h.foldl_without _

end Call
end RowStore
