import RowStore.Proofs.PageLabels

/-!
# Pages whose tables may have changed

A table can be registered anew at any time, so a cached page need not be a page of the file that is
registered for its table now. What stays true is that each cached page is kept under its own name, has
the shape that its own schema and size ask for, and lies inside its file. Where all files have the pages
of the database, so have the cached pages. Calls that edit tuples are chains of steps, and every step
keeps this.
-/
namespace RowStore
open Relation

namespace Page

theorem Shaped.markDirty {page : Page} (h : page.Shaped) (txn : TransactionId) :
    (page.markDirty txn).Shaped :=
  ⟨h.slots, h.header, h.marked, h.stored⟩

theorem Shaped.markClean {page : Page} (h : page.Shaped) : page.markClean.Shaped :=
  ⟨h.slots, h.header, h.marked, h.stored⟩

end Page

namespace Database

/-- The number of pages that the file of a table has, whether it is registered or not. -/
def extent (db : Database) : TableId → Nat
  | .number _ => 0
  | .file name => (⟨name, db.config.pageSize⟩ : PageFile).pageTotal db.volume

/-- The page may be cached under that name. -/
structure Lodged (db : Database) (id : PageId) (page : Page) : Prop where
  identified : page.id = id
  shaped : page.Shaped
  size : page.size = db.config.pageSize
  counted : id.number.toNat < db.extent id.table

/-- Every registered file is named by its table and has the pages of the database, and every cached page
is lodged. -/
structure Housed (db : Database) : Prop where
  inOrder : db.pool.InOrder
  named : ∀ table file, db.catalog.file table = .ok file → file.id = table
  sized : ∀ table file, db.catalog.file table = .ok file → file.pageSize = db.config.pageSize
  cached : ∀ id page, db.pool.page? id = some page → db.Lodged id page

/-- The bytes that the file of a table has, whether it is registered or not. -/
def span (db : Database) : TableId → Nat
  | .number _ => 0
  | .file name => (db.volume.contents name).size

/-- The page may be cached under that name, in a size of its own. -/
structure Within (db : Database) (id : PageId) (page : Page) : Prop where
  identified : page.id = id
  shaped : page.Shaped
  counted : id.number.toNat * page.size < db.span id.table

/-- Every registered file is named by its table, and every cached page is within its file. -/
structure Orderly (db : Database) : Prop where
  inOrder : db.pool.InOrder
  named : ∀ table file, db.catalog.file table = .ok file → file.id = table
  cached : ∀ id page, db.pool.page? id = some page → db.Within id page

/-- A step of paging, whatever is registered for the pages that are cached. -/
inductive Turnover (db : Database) : Database → Prop
  | read (file : TableFile) : Turnover db (db.countTransfer file Traffic.countRead)
  | writeBack {id : PageId} (w : WriteBack db id) : Turnover db w.result
  | evict {id : PageId} {page : Page} (cached : db.pool.page? id = some page)
      (clean : page.isDirty = false) : Turnover db (db.without id)
  | load {id : PageId} (load : Load db id) (miss : db.pool.frames.get? id = none)
      (room : db.pool.size < db.pool.capacity) : Turnover db (db.holding load.page)

/-- A step of paging, an edit of one row of a registered table, the append of an empty page, or the loss
of a page. Only accepted tuples are inserted. -/
inductive Act (accepts : Tuple → Prop) (db : Database) : Database → Prop
  | turnover {db' : Database} (h : Turnover db db') : Act accepts db db'
  | insert (txn : TransactionId) {id : PageId} {page : Page} {slot : Nat} {t : Tuple}
      (registered : ∃ file, db.catalog.file id.table = .ok file)
      (cached : db.pool.page? id = some page) (agrees : t.schema.Agrees page.schema)
      (accepted : accepts t) (free : page.freeSlot? = some slot) :
      Act accepts db (db.replacing id ((page.fill slot t).markDirty txn))
  | delete (txn : TransactionId) {id : PageId} {page : Page} {slot : Nat}
      (registered : ∃ file, db.catalog.file id.table = .ok file)
      (cached : db.pool.page? id = some page) (used : page.isSlotUsed slot = true) :
      Act accepts db (db.replacing id ((page.free slot).markDirty txn))
  | append {file : TableFile} (registered : db.catalog.file file.id = .ok file) :
      Act accepts db (db.appending file (file.numPages db.volume))
  | discard (id : PageId) : Act accepts db (db.without id)

/-- The tables and the sizes are as they were. -/
structure SameSetup (db db' : Database) : Prop where
  catalog : db'.catalog = db.catalog
  config : db'.config = db.config
  capacity : db'.pool.capacity = db.pool.capacity

theorem SameSetup.refl (db : Database) : SameSetup db db := ⟨rfl, rfl, rfl⟩

theorem SameSetup.trans {a b c : Database} (hab : SameSetup a b) (hbc : SameSetup b c) :
    SameSetup a c :=
  ⟨hbc.catalog.trans hab.catalog, hbc.config.trans hab.config, hbc.capacity.trans hab.capacity⟩

theorem Turnover.sameSetup {db db' : Database} (h : Turnover db db') : SameSetup db db' := by
  cases h <;> exact ⟨rfl, rfl, rfl⟩

theorem Act.sameSetup {accepts : Tuple → Prop} {db db' : Database} (h : Act accepts db db') :
    SameSetup db db' := by
  cases h with
  | turnover h => exact h.sameSetup
  | insert | delete | append | discard => exact ⟨rfl, rfl, rfl⟩

theorem sameSetup_of_acts {accepts : Tuple → Prop} {db db' : Database}
    (h : ReflTransGen (Act accepts) db db') : SameSetup db db' := by
  induction h with
  | refl => exact .refl db
  | tail _ hstep ih => exact ih.trans hstep.sameSetup

theorem acts_of_turnovers {accepts : Tuple → Prop} {db db' : Database}
    (h : ReflTransGen Turnover db db') : ReflTransGen (Act accepts) db db' :=
  h.lift id fun _ _ => Act.turnover

variable {db db' : Database}

theorem span_storing {file : TableFile} (n : PageNo) {image : Bytes}
    (hlength : image.length = file.pageSize) (table : TableId) :
    (db.storing file n image).span table =
      if table = file.id then max (db.span table) (n.toNat * file.pageSize + file.pageSize)
      else db.span table := by
  cases table with
  | number m => rfl
  | file name =>
    change ((file.pages.replace db.volume n image).contents name).size = _
    by_cases hname : name = file.pages.name
    · subst hname
      rw [if_pos (show TableId.file file.pages.name = file.id from rfl),
        PageFile.size_replace file.pageSize_pos _ _ hlength]
      rfl
    · have htable : TableId.file name ≠ file.id := fun h => hname (TableId.file.inj h)
      rw [if_neg htable, PageFile.replace, Volume.contents_store, if_neg hname]
      rfl

theorem span_le_storing {file : TableFile} (n : PageNo) {image : Bytes}
    (hlength : image.length = file.pageSize) (table : TableId) :
    db.span table ≤ (db.storing file n image).span table := by
  rw [span_storing n hlength]
  split
  · exact Nat.le_max_left _ _
  · exact Nat.le_refl _

theorem Within.mono {id : PageId} {page : Page} (h : db.Within id page)
    (hspan : db.span id.table ≤ db'.span id.table) : db'.Within id page :=
  ⟨h.identified, h.shaped, Nat.lt_of_lt_of_le h.counted hspan⟩

theorem Within.lt_pageTotal {id : PageId} {page : Page} (h : db.Within id page) {file : TableFile}
    (hid : file.id = id.table) (hsize : page.size = file.pageSize) :
    id.number.toNat < file.pageTotal db.volume := by
  have hcounted := h.counted
  rw [← hid, hsize] at hcounted
  exact (PageFile.lt_pageTotal_iff file.pageSize_pos).mpr hcounted

theorem Orderly.of_cached (h : db.Orderly) (hcatalog : db'.catalog = db.catalog)
    (horder : db'.pool.InOrder) (hspan : ∀ table, db.span table ≤ db'.span table)
    (hcached : ∀ id page, db'.pool.page? id = some page → db.Within id page) : db'.Orderly := by
  constructor
  case inOrder => exact horder
  case named =>
    rw [hcatalog]
    exact h.named
  case cached =>
    intro id page hpage
    exact (hcached id page hpage).mono (hspan id.table)

/-- A table has one registered file. -/
theorem Orderly.file_eq (h : db.Orderly) {table place : TableId} {file other : TableFile}
    (hfile : db.catalog.file table = .ok file) (hother : db.catalog.file place = .ok other)
    (hid : file.id = other.id) : file = other := by
  rw [← h.named table file hfile, hid, h.named place other hother, hother] at hfile
  exact (Except.ok.inj hfile).symm

/-- A registered file is registered under its own name. -/
theorem Orderly.registered (h : db.Orderly) {table : TableId} {file : TableFile}
    (hfile : db.catalog.file table = .ok file) : db.catalog.file file.id = .ok file := by
  rwa [h.named table file hfile]

/-- The page that is written back goes to its own place. -/
theorem WriteBack.place {id : PageId} (w : WriteBack db id) (h : db.Orderly) :
    (⟨w.file.id, w.page.id.number⟩ : PageId) = id := by
  rw [← w.home, (h.cached id w.page w.cached).identified]

theorem WriteBack.page_size {id : PageId} (w : WriteBack db id) (h : db.Orderly) :
    w.page.size = w.file.pageSize := by
  rw [← w.length]
  exact ((h.cached id w.page w.cached).shaped.rows_ofImage w.encoded).1.symm

/-- The page that is written back is one of the file's. -/
theorem WriteBack.counted {id : PageId} (w : WriteBack db id) (h : db.Orderly) :
    w.page.id.number.toNat < w.file.pageTotal db.volume := by
  have hwithin := h.cached id w.page w.cached
  have htable : w.file.id = id.table := by rw [← w.home, hwithin.identified]
  rw [hwithin.identified]
  exact hwithin.lt_pageTotal htable (w.page_size h)

theorem WriteBack.pageTotal_eq {id : PageId} (w : WriteBack db id) (h : db.Orderly) {file : TableFile}
    (hsize : file.id = w.file.id → file.pageSize = w.file.pageSize) :
    file.pageTotal w.result.volume = file.pageTotal db.volume := by
  change file.pageTotal (w.file.pages.replace db.volume w.page.id.number w.image) = _
  by_cases hid : file.id = w.file.id
  · rw [TableFile.pageTotal, TableFile.pageTotal, TableFile.pages_eq hid (hsize hid)]
    exact (TableFile.pageTotal_replace w.length _ _).trans (Nat.max_eq_left (w.counted h))
  · exact TableFile.pageTotal_replace_other hid _ _ _

theorem WriteBack.image_other {victim : PageId} (w : WriteBack db victim) (h : db.Orderly)
    {file : TableFile} (hsize : file.id = w.file.id → file.pageSize = w.file.pageSize) {n : PageNo}
    (hother : (⟨file.id, n⟩ : PageId) ≠ victim) :
    file.pages.image w.result.volume n = file.pages.image db.volume n := by
  change file.pages.image (w.file.pages.replace db.volume w.page.id.number w.image) n = _
  by_cases hid : file.id = w.file.id
  · rw [TableFile.pages_eq hid (hsize hid), PageFile.image_replace _ _ _ _ w.length, if_neg]
    rintro rfl
    rw [hid] at hother
    exact hother (w.place h)
  · exact PageFile.image_replace_other (fun hname => hid (congrArg TableId.file hname)) _ _ _ _

/-- A page that was read is clean and within its file. -/
theorem Load.within {id : PageId} (load : Load db id) :
    db.Within id load.page ∧ load.page.isDirty = false ∧ load.page.WellFormed load.file ∧
      load.page.rows = load.file.rowsOnDisk db.volume id.number := by
  obtain ⟨page, hpage, _, hclean, hformed, hrows⟩ := load.file.pageOnDisk_eq_ok db.volume id.number
  rw [load.parsed] at hpage
  cases hpage
  obtain ⟨htable, hcounted⟩ := TableFile.number_lt_of_checkPage load.counted
  refine ⟨⟨load.page_id, hformed.shaped, ?_⟩, hclean, hformed, hrows⟩
  rw [htable, hformed.size]
  exact (PageFile.lt_pageTotal_iff load.file.pageSize_pos).mp hcounted

theorem Orderly.replacing (h : db.Orderly) {id : PageId} {old page : Page}
    (hcached : db.pool.page? id = some old) (hpage : db.Within id page) :
    (db.replacing id page).Orderly := by
  have horder : (db.replacing id page).pool.InOrder :=
    h.inOrder.of_outline (Pool.outline_modify _ _ _)
  refine h.of_cached rfl horder (fun _ => Nat.le_refl _) fun other found hfound => ?_
  rw [page?_replacing hcached] at hfound
  split at hfound
  · next hother =>
    cases hfound
    rwa [hother]
  · exact h.cached other found hfound

theorem Orderly.without (h : db.Orderly) (id : PageId) : (db.without id).Orderly :=
  h.of_cached rfl (h.inOrder.drop id) (fun _ => Nat.le_refl _) fun other found hfound =>
    h.cached other found (page?_of_without hfound)

/-- Storing a page on disk touches no cached page. -/
theorem Orderly.storing (h : db.Orderly) {file : TableFile} (n : PageNo) {image : Bytes}
    (hlength : image.length = file.pageSize) : (db.storing file n image).Orderly :=
  h.of_cached rfl h.inOrder (span_le_storing n hlength) h.cached

/-- A step of paging keeps the pages within their files. -/
theorem Orderly.turnover (h : db.Orderly) (hstep : Turnover db db') : db'.Orderly := by
  cases hstep with
  | read file => exact h.of_cached rfl h.inOrder (fun _ => Nat.le_refl _) h.cached
  | @writeBack id w =>
    refine h.of_cached rfl (h.inOrder.of_outline w.outline) (span_le_storing _ w.length) ?_
    intro other page hpage
    rw [w.page?_result] at hpage
    split at hpage
    · next hother =>
      cases hpage
      have hwithin := h.cached id w.page w.cached
      rw [hother]
      exact ⟨hwithin.identified, hwithin.shaped.markClean, hwithin.counted⟩
    · exact h.cached other page hpage
  | evict hcached hclean => exact h.without _
  | @load id load hmiss hroom =>
    have hmiss' : db.pool.frames.get? load.page.id = none := by rwa [load.page_id]
    refine h.of_cached rfl (h.inOrder.install hmiss' hroom) (fun _ => Nat.le_refl _) ?_
    intro other found hfound
    rw [page?_holding] at hfound
    split at hfound
    · next hother =>
      cases hfound
      rw [hother, load.page_id]
      exact load.within.1
    · exact h.cached other found hfound

theorem Orderly.turnovers (h : db.Orderly) (hsteps : ReflTransGen Turnover db db') : db'.Orderly := by
  induction hsteps with
  | refl => exact h
  | tail _ hstep ih => exact ih.turnover hstep

/-- A file with the pages of the database has the extent of its table. -/
theorem pageTotal_eq_extent {file : TableFile} (hsize : file.pageSize = db.config.pageSize) :
    file.pageTotal db.volume = db.extent file.id := by
  rw [TableFile.id, extent, ← hsize]
  rfl

theorem extent_of_same {table : TableId} (hconfig : db'.config = db.config)
    (hvolume : ∀ name, db'.volume.contents name = db.volume.contents name) :
    db'.extent table = db.extent table := by
  cases table with
  | number n => rfl
  | file name => rw [extent, extent, PageFile.pageTotal, PageFile.pageTotal, hconfig, hvolume]

theorem extent_storing {file : TableFile} (hsize : file.pageSize = db.config.pageSize) (n : PageNo)
    {image : Bytes} (hlength : image.length = file.pageSize) (table : TableId) :
    (db.storing file n image).extent table =
      if table = file.id then max (db.extent table) (n.toNat + 1) else db.extent table := by
  cases table with
  | number m => rfl
  | file name =>
    change (⟨name, db.config.pageSize⟩ : PageFile).pageTotal (file.pages.replace db.volume n image) = _
    by_cases hname : name = file.pages.name
    · have hpages : (⟨name, db.config.pageSize⟩ : PageFile) = file.pages := by rw [hname, ← hsize]; rfl
      rw [extent, hpages, if_pos (by rw [hname]; rfl)]
      exact PageFile.pageTotal_replace file.pageSize_pos _ _ hlength
    · have htable : TableId.file name ≠ file.id := fun h => hname (TableId.file.inj h)
      rw [if_neg htable]
      exact PageFile.pageTotal_replace_other hname _ _ _

theorem Lodged.mono {id : PageId} {page : Page} (h : db.Lodged id page)
    (hconfig : db'.config = db.config) (hextent : db.extent id.table ≤ db'.extent id.table) :
    db'.Lodged id page :=
  ⟨h.identified, h.shaped, by rw [hconfig]; exact h.size, Nat.lt_of_lt_of_le h.counted hextent⟩

theorem Housed.of_cached (h : db.Housed) (hsame : SameSetup db db') (horder : db'.pool.InOrder)
    (hextent : ∀ table, db.extent table ≤ db'.extent table)
    (hcached : ∀ id page, db'.pool.page? id = some page → db.Lodged id page) : db'.Housed := by
  constructor
  case inOrder => exact horder
  case named =>
    rw [hsame.catalog]
    exact h.named
  case sized =>
    rw [hsame.catalog, hsame.config]
    exact h.sized
  case cached =>
    intro id page hpage
    exact (hcached id page hpage).mono hsame.config (hextent id.table)

theorem Housed.registered (h : db.Housed) {table : TableId} {file : TableFile}
    (hfile : db.catalog.file table = .ok file) : db.catalog.file file.id = .ok file := by
  rwa [h.named table file hfile]

theorem Housed.pageTotal_eq (h : db.Housed) {table : TableId} {file : TableFile}
    (hfile : db.catalog.file table = .ok file) : file.pageTotal db.volume = db.extent table := by
  rw [pageTotal_eq_extent (h.sized table file hfile), h.named table file hfile]

theorem Housed.orderly (h : db.Housed) : db.Orderly := by
  constructor
  case inOrder => exact h.inOrder
  case named => exact h.named
  case cached =>
    intro id page hpage
    have hlodged := h.cached id page hpage
    refine ⟨hlodged.identified, hlodged.shaped, ?_⟩
    have hcounted := hlodged.counted
    rw [hlodged.size]
    cases htable : id.table with
    | number n =>
      rw [htable] at hcounted
      exact absurd hcounted (Nat.not_lt_zero _)
    | file name =>
      rw [htable, extent] at hcounted
      have hpos : 0 < db.config.pageSize := by
        refine Nat.pos_of_ne_zero fun hzero => ?_
        rw [PageFile.pageTotal, hzero, Nat.div_zero] at hcounted
        exact Nat.not_lt_zero _ hcounted
      exact (PageFile.lt_pageTotal_iff hpos).mp hcounted

/-- Pages that are sound are within their files. -/
theorem Coherent.orderly (h : db.Coherent) : db.Orderly := by
  refine ⟨h.inOrder, h.named, fun id page hpage => ?_⟩
  obtain ⟨file, hsound⟩ := h.cached id page hpage
  refine ⟨hsound.identified, hsound.wellFormed.shaped, ?_⟩
  rw [hsound.wellFormed.size, ← h.named _ _ hsound.registered]
  exact (PageFile.lt_pageTotal_iff file.pageSize_pos).mp hsound.counted

theorem WriteBack.sized {id : PageId} (w : WriteBack db id) (h : db.Housed) :
    w.file.pageSize = db.config.pageSize :=
  h.sized _ _ w.registered

theorem WriteBack.extent {id : PageId} (w : WriteBack db id) (h : db.Housed) (table : TableId) :
    w.result.extent table = db.extent table := by
  have hcounted := (h.cached id w.page w.cached).counted
  rw [← w.place h.orderly] at hcounted
  have hextent := extent_storing (w.sized h) w.page.id.number w.length table
  change (db.storing w.file w.page.id.number w.image).extent table = _
  rw [hextent]
  split
  · next htable =>
    subst htable
    exact Nat.max_eq_left hcounted
  · rfl

theorem Load.lodged {id : PageId} (load : Load db id) (h : db.Housed) :
    db.Lodged id load.page ∧ load.page.isDirty = false ∧ load.page.WellFormed load.file ∧
      load.page.rows = load.file.rowsOnDisk db.volume id.number := by
  obtain ⟨hwithin, hclean, hformed, hrows⟩ := load.within
  obtain ⟨_, hcounted⟩ := TableFile.number_lt_of_checkPage load.counted
  rw [h.pageTotal_eq load.registered] at hcounted
  refine ⟨⟨load.page_id, hwithin.shaped, ?_, hcounted⟩, hclean, hformed, hrows⟩
  exact hformed.size.trans (h.sized _ _ load.registered)

/-- A step of paging keeps the pages housed and the files as long as they are. -/
theorem Housed.turnover (h : db.Housed) (hstep : Turnover db db') :
    db'.Housed ∧ ∀ table, db'.extent table = db.extent table := by
  suffices hnext : db'.pool.InOrder ∧ (∀ table, db'.extent table = db.extent table) ∧
      ∀ id page, db'.pool.page? id = some page → db.Lodged id page by
    obtain ⟨horder, hextent, hcached⟩ := hnext
    exact ⟨h.of_cached hstep.sameSetup horder (fun table => Nat.le_of_eq (hextent table).symm) hcached,
      hextent⟩
  cases hstep with
  | read file => exact ⟨h.inOrder, fun _ => rfl, h.cached⟩
  | @writeBack id w =>
    refine ⟨h.inOrder.of_outline w.outline, w.extent h, fun other page hpage => ?_⟩
    rw [w.page?_result] at hpage
    split at hpage
    · next hother =>
      cases hpage
      have hlodged := h.cached id w.page w.cached
      rw [hother]
      exact ⟨hlodged.identified, hlodged.shaped.markClean, hlodged.size, hlodged.counted⟩
    · exact h.cached other page hpage
  | @evict id page hcached hclean =>
    exact ⟨h.inOrder.drop id, fun _ => rfl, fun other found hfound =>
      h.cached other found (page?_of_without hfound)⟩
  | @load id load hmiss hroom =>
    have hmiss' : db.pool.frames.get? load.page.id = none := by rwa [load.page_id]
    refine ⟨h.inOrder.install hmiss' hroom, fun _ => rfl, fun other found hfound => ?_⟩
    rw [page?_holding] at hfound
    split at hfound
    · next hother =>
      cases hfound
      rw [hother, load.page_id]
      exact (load.lodged h).1
    · exact h.cached other found hfound

theorem Housed.turnovers (h : db.Housed) (hsteps : ReflTransGen Turnover db db') :
    db'.Housed ∧ ∀ table, db'.extent table = db.extent table := by
  induction hsteps with
  | refl => exact ⟨h, fun _ => rfl⟩
  | tail _ hstep ih =>
    obtain ⟨hhoused, hextent⟩ := ih.1.turnover hstep
    exact ⟨hhoused, fun table => (hextent table).trans (ih.2 table)⟩

theorem sameSetup_of_turnovers (hsteps : ReflTransGen Turnover db db') : SameSetup db db' := by
  have hacts : ReflTransGen (Act fun _ => True) db db' := acts_of_turnovers hsteps
  exact sameSetup_of_acts hacts

theorem Housed.replacing (h : db.Housed) {id : PageId} {old page : Page}
    (hcached : db.pool.page? id = some old) (hpage : db.Lodged id page) :
    (db.replacing id page).Housed := by
  have horder : (db.replacing id page).pool.InOrder :=
    h.inOrder.of_outline (Pool.outline_modify _ _ _)
  refine h.of_cached ⟨rfl, rfl, rfl⟩ horder (fun _ => Nat.le_refl _) fun other found hfound => ?_
  rw [page?_replacing hcached] at hfound
  split at hfound
  · next hother =>
    cases hfound
    rwa [hother]
  · exact h.cached other found hfound

/-- Storing a page on disk touches no cached page. -/
theorem Housed.storing (h : db.Housed) {file : TableFile} (hsize : file.pageSize = db.config.pageSize)
    (n : PageNo) {image : Bytes} (hlength : image.length = file.pageSize) :
    (db.storing file n image).Housed := by
  refine h.of_cached ⟨rfl, rfl, rfl⟩ h.inOrder (fun table => ?_) h.cached
  rw [extent_storing hsize n hlength]
  split
  · exact Nat.le_max_left _ _
  · exact Nat.le_refl _

theorem Housed.act (h : db.Housed) {accepts : Tuple → Prop} (haccepts : ∀ t, accepts t → t.Complete)
    (hstep : Act accepts db db') : db'.Housed := by
  cases hstep with
  | turnover hturn => exact (h.turnover hturn).1
  | @insert txn id page slot t _ hcached hagrees haccepted hfree =>
    have hlodged := h.cached id page hcached
    have hslot := ((page.freeSlot?_eq_some_iff slot).mp hfree).1
    exact h.replacing hcached ⟨hlodged.identified,
      (hlodged.shaped.fill hslot hagrees (haccepts t haccepted)).markDirty txn, hlodged.size,
      hlodged.counted⟩
  | @delete txn id page slot _ hcached hused =>
    have hlodged := h.cached id page hcached
    rw [Page.isSlotUsed, Bool.and_eq_true, decide_eq_true_eq] at hused
    exact h.replacing hcached ⟨hlodged.identified, (hlodged.shaped.free hused.1).markDirty txn,
      hlodged.size, hlodged.counted⟩
  | @append file hfile => exact h.storing (h.sized _ _ hfile) _ List.length_replicate
  | discard id =>
    exact h.of_cached ⟨rfl, rfl, rfl⟩ (h.inOrder.drop id) (fun _ => Nat.le_refl _)
      fun other found hfound => h.cached other found (page?_of_without hfound)

theorem Housed.acts (h : db.Housed) {accepts : Tuple → Prop} (haccepts : ∀ t, accepts t → t.Complete)
    (hsteps : ReflTransGen (Act accepts) db db') : db'.Housed := by
  induction hsteps with
  | refl => exact h
  | tail _ hstep ih => exact ih.act haccepts hstep

/-- Reading the page depends on the catalog and the volume only. -/
def Load.of_same {id : PageId} (load : Load db id) (hcatalog : db'.catalog = db.catalog)
    (hvolume : db'.volume = db.volume) : Load db' id where
  file := load.file
  page := load.page
  registered := by rw [hcatalog]; exact load.registered
  counted := by rw [hvolume]; exact load.counted
  parsed := by rw [hvolume]; exact load.parsed

/-- The file that a page was read from has the pages of the file that another page is written to, where
both are files of one table. -/
theorem Load.same_size {id victim : PageId} (load : Load db id) (h : db.Orderly)
    (w : WriteBack db victim) (hid : load.file.id = w.file.id) :
    load.file.pageSize = w.file.pageSize := by
  rw [h.file_eq load.registered w.registered hid]

/-- A page that was read stays what is on disk while another page is written back. -/
def Load.afterWriteBack {id victim : PageId} (load : Load db id) (h : db.Orderly)
    (w : WriteBack db victim) (hother : id ≠ victim) : Load w.result id where
  file := load.file
  page := load.page
  registered := load.registered
  counted := by
    have hpages : load.file.numPages w.result.volume = load.file.numPages db.volume :=
      congrArg UInt32.ofNat (w.pageTotal_eq h (load.same_size h w))
    have hcounted := load.counted
    rwa [TableFile.checkPage, ← hpages] at hcounted
  parsed := by
    have hplace : (⟨load.file.id, id.number⟩ : PageId) = id := by rw [h.named _ _ load.registered]
    rw [TableFile.pageOnDisk, w.image_other h (load.same_size h w) (by rwa [hplace])]
    exact load.parsed

theorem makeRoom_turnovers (h : db.Orderly) {id : PageId} (load : Load db id)
    (hmiss : db.pool.frames.get? id = none) (hroom : makeRoom db = .ok () db') :
    ReflTransGen Turnover db db' ∧ db'.pool.size < db'.pool.capacity ∧
      db'.pool.frames.get? id = none ∧ ∃ load' : Load db' id, load'.page = load.page := by
  rcases makeRoom_cases h.inOrder with ⟨hnotFull, hmake⟩ |
    ⟨hfull, victim, rest, page, hfront, hcached, ⟨hclean, hmake⟩ | ⟨w, rfl, hmake⟩⟩ | ⟨e, hmake⟩ <;>
    rw [hmake] at hroom <;> cases hroom
  · refine ⟨.refl, ?_, hmiss, load, rfl⟩
    rwa [h.inOrder.size_eq]
  · obtain ⟨_, hsize, hout⟩ := h.inOrder.ready_of_drop hfront hfull hmiss
    exact ⟨.single (.evict hcached hclean), hsize, hout, load.of_same rfl rfl, rfl⟩
  · have hmarked : w.result.pool.InOrder := h.inOrder.of_outline w.outline
    have hstill : w.result.pool.frames.get? id = none := by
      change (db.pool.frames.modify victim _).get? id = none
      rw [Assoc.get?_modify, hmiss, Option.map_none, ite_self]
    have hclean : w.result.pool.page? victim = some w.page.markClean := by
      rw [w.page?_result, if_pos rfl]
    obtain ⟨_, hsize, hout⟩ := hmarked.ready_of_drop hfront hfull hstill
    have hother : id ≠ victim := by
      rintro rfl
      rw [page?_eq_none hmiss] at hcached
      cases hcached
    exact ⟨.tail (.single (.writeBack w)) (.evict hclean rfl), hsize, hout,
      (load.afterWriteBack h w hother).of_same rfl rfl, rfl⟩

/-- A fetch is paging, and what it answers is cached. -/
theorem Orderly.fetch_turnovers (h : db.Orderly) (id : PageId) :
    ReflTransGen Turnover db (after (fetch id) db) ∧
      ∀ frame db', fetch id db = .ok frame db' → db'.pool.frames.get? id = some frame := by
  rcases fetch_cases id db with ⟨frame, hcached, hfetch⟩ | ⟨hmiss, load, middle, hroom, hfetch⟩ |
    ⟨e, hfetch⟩ | ⟨file, e, hfetch⟩
  · rw [after_of_ok hfetch]
    refine ⟨.refl, fun found db' hfound => ?_⟩
    rw [hfetch] at hfound
    cases hfound
    exact hcached
  · have hread : Turnover db load.read := .read load.file
    have reread : ∃ again : Load load.read id, again.page = load.page := ⟨load.of_same rfl rfl, rfl⟩
    obtain ⟨again, hagain⟩ := reread
    obtain ⟨hpages, hsize, hmissing, load', hload⟩ :=
      makeRoom_turnovers (h.turnover hread) again hmiss hroom
    rw [hagain] at hload
    have hlast : Turnover middle (middle.holding load.page) := by
      rw [← hload]
      exact .load load' hmissing hsize
    rw [after_of_ok hfetch]
    refine ⟨(ReflTransGen.head hread hpages).tail hlast, fun found db' hfound => ?_⟩
    rw [hfetch] at hfound
    cases hfound
    change (middle.pool.frames.insert load.page.id _).get? id = _
    rw [Assoc.get?_insert, if_pos load.page_id.symm]
    rfl
  · rw [after_of_error hfetch]
    refine ⟨.refl, fun found db' hfound => ?_⟩
    rw [hfetch] at hfound
    cases hfound
  · rw [after_of_error hfetch]
    refine ⟨.single (.read file), fun found db' hfound => ?_⟩
    rw [hfetch] at hfound
    cases hfound

/-- What is fetched is cached, and nothing but paging has been done. -/
theorem Orderly.fetched (h : db.Orderly) {id : PageId} {frame : Frame}
    (hfetch : fetch id db = .ok frame db') :
    ReflTransGen Turnover db db' ∧ db'.Orderly ∧ db'.pool.page? id = some frame.page := by
  obtain ⟨hpages, hcached⟩ := h.fetch_turnovers id
  rw [after_of_ok hfetch] at hpages
  refine ⟨hpages, h.turnovers hpages, ?_⟩
  rw [Pool.page?, hcached frame db' hfetch, Option.map_some]

theorem Orderly.turnovers_of_update_error (h : db.Orderly) {txn : TransactionId} {id : PageId}
    {edit : PageEdit Unit} (hedit : ∀ e page page', edit page = .error e page' → page' = page) {e : Fault}
    (hupdate : update txn id edit db = .error e db') : ReflTransGen Turnover db db' := by
  obtain ⟨hpages, hcached⟩ := h.fetch_turnovers id
  cases hfetch : fetch id db with
  | error e middle =>
    rw [update_of_fetch_error hfetch] at hupdate
    cases hupdate
    rwa [after_of_error hfetch] at hpages
  | ok frame middle =>
    rw [after_of_ok hfetch] at hpages
    cases hrun : edit frame.page with
    | ok _ page =>
      rw [update_of_edit_ok hfetch hrun] at hupdate
      cases hupdate
    | error e page =>
      rw [update_of_edit_error hfetch hrun, hedit e _ _ hrun,
        replacing_self (h.turnovers hpages).inOrder (hcached frame middle hfetch)] at hupdate
      cases hupdate
      exact hpages

theorem fetch_turnovers (h : db.Housed) (id : PageId) :
    ReflTransGen Turnover db (after (fetch id) db) ∧
      ∀ frame db', fetch id db = .ok frame db' → db'.pool.frames.get? id = some frame :=
  h.orderly.fetch_turnovers id

theorem Housed.fetched (h : db.Housed) {id : PageId} {frame : Frame}
    (hfetch : fetch id db = .ok frame db') :
    ReflTransGen Turnover db db' ∧ db'.Housed ∧ db'.pool.page? id = some frame.page := by
  obtain ⟨hpages, _, hcached⟩ := h.orderly.fetched hfetch
  exact ⟨hpages, (h.turnovers hpages).1, hcached⟩

variable {accepts : Tuple → Prop}

/-- An edit of a fetched page that leaves the page where it fails is a chain of steps, if its success
is a step. -/
theorem update_acts (h : db.Housed) (txn : TransactionId) (id : PageId) (edit : PageEdit Unit)
    (hok : ∀ db' page page', SameSetup db db' → db'.pool.page? id = some page →
      edit page = .ok () page' → Act accepts db' (db'.replacing id (page'.markDirty txn)))
    (herror : ∀ e page page', edit page = .error e page' → page' = page) :
    ReflTransGen (Act accepts) db (after (update txn id edit) db) := by
  cases hupdate : update txn id edit db with
  | error e db' =>
    rw [after_of_error hupdate]
    exact acts_of_turnovers (h.orderly.turnovers_of_update_error herror hupdate)
  | ok frame db' =>
    rw [after_of_ok hupdate]
    cases hfetch : fetch id db with
    | error e middle =>
      rw [update_of_fetch_error hfetch] at hupdate
      cases hupdate
    | ok found middle =>
      obtain ⟨hpages, _, hcached⟩ := h.fetched hfetch
      cases hedit : edit found.page with
      | ok _ page =>
        rw [update_of_edit_ok hfetch hedit] at hupdate
        cases hupdate
        exact (acts_of_turnovers hpages).tail (hok _ _ _ (sameSetup_of_turnovers hpages) hcached hedit)
      | error e page =>
        rw [update_of_edit_error hfetch hedit] at hupdate
        cases hupdate

theorem update_insert_acts (h : db.Housed) (txn : TransactionId) {id : PageId}
    (hfile : ∃ file, db.catalog.file id.table = .ok file) {t : Tuple} (ht : accepts t) :
    ReflTransGen (Act accepts) db (after (update txn id (insertEdit t)) db) := by
  apply update_acts h
  · intro db' page page' hsame hcached hedit
    obtain ⟨hagrees, slot, hslot, rfl⟩ := Page.insertEdit_eq_ok.mp hedit
    rw [← hsame.catalog] at hfile
    exact .insert txn hfile hcached hagrees ht hslot
  · intro e page page' hedit
    exact Page.insertEdit_eq_error hedit

theorem update_delete_acts (h : db.Housed) (txn : TransactionId) {id : PageId}
    (hfile : ∃ file, db.catalog.file id.table = .ok file) (t : Tuple) :
    ReflTransGen (Act accepts) db (after (update txn id (Page.delete t)) db) := by
  apply update_acts h
  · intro db' page page' hsame hcached hedit
    obtain ⟨record, _, _, hused, rfl⟩ := Page.delete_eq_ok.mp hedit
    rw [← hsame.catalog] at hfile
    exact .delete txn hfile hcached hused
  · intro e page page' hedit
    exact Page.delete_eq_error hedit

/-- The pages left to visit are those that the file counts, so the page that is written when all are
full has the number that the file counts up to. -/
theorem insertAmong_acts (haccepts : ∀ t, accepts t → t.Complete) {file : TableFile}
    (txn : TransactionId) {t : Tuple} (ht : accepts t) (left page : Nat) {db : Database}
    (h : db.Housed) (hfile : db.catalog.file file.id = .ok file)
    (hleft : page + left = (file.numPages db.volume).toNat) :
    ReflTransGen (Act accepts) db (after (insertAmong file txn t page left) db) := by
  induction left generalizing page db with
  | zero =>
    have hlast : UInt32.ofNat page = file.numPages db.volume := by
      rw [← UInt32.ofNat_toNat (x := file.numPages db.volume), ← hleft, Nat.add_zero]
    have hact : Act accepts db (db.appending file (UInt32.ofNat page)) := by
      rw [hlast]
      exact .append hfile
    let last : PageId := ⟨file.id, UInt32.ofNat page⟩
    have hregistered : ∃ found, db.catalog.file last.table = .ok found := ⟨file, hfile⟩
    have hupdate : ReflTransGen (Act accepts) (db.appending file (UInt32.ofNat page))
        (after (update txn last (insertEdit t)) _) :=
      update_insert_acts (h.act haccepts hact) txn hregistered ht
    rw [after_congr (insertAmong_zero file txn t page db), after_updateList]
    exact .head hact hupdate
  | succ left ih =>
    obtain ⟨hpages, _⟩ := fetch_turnovers h ⟨file.id, UInt32.ofNat page⟩
    obtain ⟨hhoused, hextent⟩ := h.turnovers hpages
    have hsame := sameSetup_of_turnovers hpages
    rw [after, insertAmong_succ]
    cases hfetch : fetch ⟨file.id, UInt32.ofNat page⟩ db with
    | error e db' =>
      rw [after_of_error hfetch] at hpages
      exact acts_of_turnovers hpages
    | ok frame db' =>
      rw [after_of_ok hfetch] at hpages hhoused hextent hsame
      apply (acts_of_turnovers hpages).trans
      have hfile' : db'.catalog.file file.id = .ok file := by rwa [hsame.catalog]
      by_cases hfree : 0 < frame.page.numEmptySlots
      · simp only [hfree, if_true]
        have hupdate : ReflTransGen (Act accepts) db'
            (after (update txn ⟨file.id, UInt32.ofNat page⟩ (insertEdit t)) db') :=
          update_insert_acts hhoused txn ⟨file, hfile'⟩ ht
        rwa [← after_updateList] at hupdate
      · simp only [hfree, if_false]
        apply ih (page + 1) hhoused hfile'
        have htotal : file.pageTotal db'.volume = file.pageTotal db.volume := by
          rw [hhoused.pageTotal_eq hfile', h.pageTotal_eq hfile, hextent]
        have hpages : file.numPages db'.volume = file.numPages db.volume :=
          congrArg UInt32.ofNat htotal
        rw [hpages]
        omega

theorem insertTuple_acts (haccepts : ∀ t, accepts t → t.Complete) (h : db.Housed)
    (txn : TransactionId) (table : TableId) {t : Tuple} (ht : accepts t) :
    ReflTransGen (Act accepts) db (after (insertTuple txn table t) db) := by
  cases hfile : db.catalog.file table with
  | error e => rw [after_of_error (insertTuple_of_missing txn t hfile)]
  | ok file =>
    have hinsert := insertTuple_eq txn t hfile
    by_cases hagrees : t.schema.Agrees file.schema
    · rw [if_pos hagrees] at hinsert
      rw [after_unanswered hinsert]
      exact insertAmong_acts haccepts txn ht _ 0 h (h.registered hfile) (Nat.zero_add _)
    · rw [if_neg hagrees] at hinsert
      rw [after_of_error hinsert]

theorem deleteTuple_acts (h : db.Housed) (txn : TransactionId) (t : Tuple) :
    ReflTransGen (Act accepts) db (after (deleteTuple txn t) db) := by
  cases hrecord : t.record with
  | none => rw [after_of_error (deleteTuple_of_noRecord txn hrecord db)]
  | some record =>
    cases hfile : db.catalog.file record.page.table with
    | error e => rw [after_of_error (deleteTuple_of_missing txn hrecord hfile)]
    | ok file =>
      have hdelete := deleteTuple_eq txn hrecord hfile
      cases hcheck : file.checkPage db.volume record.page with
      | error e =>
        rw [hcheck] at hdelete
        rw [after_of_error hdelete]
      | ok _ =>
        rw [hcheck] at hdelete
        rw [after_unanswered hdelete]
        exact update_delete_acts h txn ⟨file, hfile⟩ t

theorem writeBack_turnovers (id : PageId) (db : Database) :
    ReflTransGen Turnover db (after (writeBack id) db) := by
  rcases writeBack_cases id db with ⟨hback, _⟩ | ⟨w, hback⟩ | ⟨e, hback⟩
  · rw [after_of_ok hback]
  · rw [after_of_ok hback]
    exact .single (.writeBack w)
  · rw [after_of_error hback]

theorem writeAll_turnovers (ids : List PageId) (db : Database) :
    ReflTransGen Turnover db (after (writeAll ids) db) := by
  induction ids generalizing db with
  | nil => exact .refl
  | cons id ids ih =>
    rw [writeAll_cons]
    apply after_bind_of_trans (R := ReflTransGen Turnover) ReflTransGen.trans (writeBack_turnovers id db)
    intro _ db' _
    exact ih db'

theorem foldl_without_acts (ids : List PageId) (db : Database) :
    ReflTransGen (Act accepts) db (ids.foldl without db) := by
  induction ids generalizing db with
  | nil => exact .refl
  | cons id ids ih => exact .head (.discard id) (ih (db.without id))

end Database

namespace Call
open Database

/-- The call edits tuples only, and inserts none but accepted ones. -/
def Edits (accepts : Tuple → Prop) : Call → Prop
  | .insert _ _ t => accepts t
  | .update _ _ _ => False
  | .fetch _ | .delete _ _ | .flushPage _ | .flushTransaction _ | .flushAll | .flushList _
  | .discard _ | .complete _ _ => True

/-- A call that edits tuples is a chain of steps, whatever is registered. -/
theorem leaves_acts {accepts : Tuple → Prop} (haccepts : ∀ t, accepts t → t.Complete) {call : Call}
    (hcall : call.Edits accepts) {db : Database} (h : db.Housed) :
    ReflTransGen (Act accepts) db (call.leaves db) := by
  cases call with
  | fetch id =>
    rw [leaves, perform, after_ignored]
    exact acts_of_turnovers (fetch_turnovers h id).1
  | insert txn table t => exact insertTuple_acts haccepts h txn table hcall
  | delete txn t => exact deleteTuple_acts h txn t
  | update txn id edit => exact hcall.elim
  | flushPage id =>
    rw [leaves, perform, after_ignored, after_flushPage]
    exact acts_of_turnovers (writeBack_turnovers id db)
  | flushTransaction txn => exact acts_of_turnovers (writeAll_turnovers _ db)
  | flushAll => exact acts_of_turnovers (writeAll_turnovers _ db)
  | flushList ids => exact acts_of_turnovers (writeAll_turnovers ids db)
  | discard id => exact .single (.discard id)
  | complete txn commit =>
    cases commit with
    | true => exact acts_of_turnovers (writeAll_turnovers _ db)
    | false =>
      rw [leaves, perform, after_of_ok (complete_abort txn db)]
      exact foldl_without_acts _ db

end Call
end RowStore
