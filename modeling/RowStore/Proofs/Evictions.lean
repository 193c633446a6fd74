import RowStore.Proofs.Reopening
import RowStore.Proofs.Registrations

/-!
# Pages that cannot make room

A page of a registered table is served from its frame, or it is read and takes the place of the page at
the front of the queue. Only that page can be in the way: a dirty page is written first, which needs a
registered table and tuples that fit their columns. Tuples fit wherever the files were empty at the start
and tables keep their columns; tables stay registered while their dirty pages last if no other table
takes the name of one with dirty pages.
-/
namespace RowStore
open Relation

namespace Page

theorem encode_of_encodeSlots {width : Nat} {slots : List (Option Tuple)} {body : Bytes}
    (h : encodeSlots width slots = .ok body) {t : Tuple} (ht : some t ∈ slots) :
    ∃ data, t.encode = .ok data := by
  induction slots generalizing body with
  | nil => cases ht
  | cons slot slots ih =>
    rw [encodeSlots] at h
    split at h
    · cases h
    · next data hdata =>
      obtain ⟨rest, hrest, _⟩ := map_eq_ok.mp h
      rcases List.mem_cons.mp ht with rfl | hmem
      · exact ⟨data, hdata⟩
      · exact ih hrest hmem

/-- A page has an image exactly if its tuples fit their columns. -/
theorem Shaped.toImage_iff {page : Page} (h : page.Shaped) :
    (∃ image, page.toImage = .ok image) ↔ ∀ t ∈ page.tuples, t.Valid := by
  constructor
  · rintro ⟨image, himage⟩ t ht
    obtain ⟨body, hbody, _⟩ := map_eq_ok.mp himage
    obtain ⟨data, hdata⟩ := encode_of_encodeSlots hbody (mem_tuples.mp ht)
    exact Tuple.valid_of_encode (h.shape (mem_tuples.mp ht)).2 hdata
  · intro hvalid
    exact toImage_of_valid fun t ht => hvalid t (mem_tuples.mpr ht)

theorem Shaped.valid_iff {page : Page} (h : page.Shaped) {file : TableFile}
    (hagrees : page.schema.Agrees file.schema) :
    (∀ t ∈ page.tuples, t.Valid) ↔ ∀ row, some row ∈ page.rows → file.Holds row := by
  have hagree {t : Tuple} (ht : t ∈ page.tuples) : t.schema.Agrees file.schema :=
    (h.shape (mem_tuples.mp ht)).1.trans hagrees
  constructor
  · intro hvalid row hrow
    obtain ⟨slot, hslot, hfields⟩ := List.mem_map.mp hrow
    obtain ⟨t, rfl, rfl⟩ := Option.map_eq_some_iff.mp hfields
    have ht := mem_tuples.mpr hslot
    exact (hvalid t ht).holds (hagree ht)
  · intro hrows t ht
    have hrow := hrows t.fields (List.mem_map.mpr ⟨some t, mem_tuples.mp ht, rfl⟩)
    exact Tuple.valid_of_holds hrow (hagree ht)

end Page

/-- A table stays registered unless another file takes its name. -/
theorem Catalog.file_addTable_of_registered {catalog : Catalog} {table : TableId} {found : TableFile}
    (h : catalog.file table = .ok found) {file : TableFile} {name : String}
    (hname : catalog.ids.get? name = some table → table = file.id) (key : String) :
    ∃ other, (catalog.addTable file name key).file table = .ok other := by
  simp only [Catalog.file, entry, addTable, Assoc.get?_insert] at h ⊢
  by_cases hid : table = file.id
  · exact ⟨file, by rw [if_pos hid]; rfl⟩
  · rw [if_neg hid]
    refine ⟨found, ?_⟩
    cases hold : catalog.ids.get? name with
    | none => exact h
    | some old =>
      have hne : table ≠ old := by
        rintro rfl
        exact hid (hname hold)
      by_cases hself : old = file.id
      · simpa only [hself, if_true] using h
      · simpa only [hself, if_false, Assoc.get?_erase, hne] using h

/-- The name that a created table gets is not the name of another table with a dirty page. -/
def Use.SparesDirty : Use → Database → Prop
  | .create path name _ _, db => ∀ id page, db.pool.page? id = some page → page.isDirty = true →
      db.catalog.ids.get? name = some id.table →
        ∃ place, Path.resolve? path = some place ∧ id.table = .file place
  | .call _, _ => True

theorem Use.sparesDirty_create {path name key : String} {schema : Schema} {db : Database}
    (h : ∀ entry ∈ db.pool.frames.entries, entry.2.page.isDirty = true →
      db.catalog.ids.get? name ≠ some entry.1.table) :
    (Use.create path name schema key).SparesDirty db := by
  intro id page hpage hdirty hname
  obtain ⟨frame, hframe, rfl⟩ := Option.map_eq_some_iff.mp hpage
  exact absurd hname (h _ (Assoc.mem_entries_of_get? hframe) hdirty)

namespace Database

/-- The page is dirty and has to make room for another one that is asked for. -/
structure Obstructs (db : Database) (page : Page) (id : PageId) : Prop where
  missing : db.pool.page? id = none
  full : db.pool.capacity ≤ db.pool.size
  front : db.pool.queue.victim? = some page.id
  cached : db.pool.page? page.id = some page
  dirty : page.isDirty = true

/-- The table is registered. -/
def Registered (db : Database) (table : TableId) : Prop := ∃ file, db.catalog.file table = .ok file

variable {db : Database}

theorem Housed.writeBack_ok_iff (h : db.Housed) {page : Page}
    (hcached : db.pool.page? page.id = some page) (hdirty : page.isDirty = true) :
    (∃ wrote db', writeBack page.id db = .ok wrote db') ↔
      db.Registered page.id.table ∧ ∀ t ∈ page.tuples, t.Valid := by
  have hlodged := h.cached page.id page hcached
  rw [← hlodged.shaped.toImage_iff]
  constructor
  · rintro ⟨wrote, db', hback⟩
    rcases writeBack_cases page.id db with ⟨_, hclean⟩ | ⟨w, _⟩ | ⟨e, herror⟩
    · rw [hclean page hcached] at hdirty
      cases hdirty
    · have hpage : w.page = page := Option.some.inj (w.cached.symm.trans hcached)
      rw [← hpage]
      exact ⟨⟨w.file, w.registered⟩, w.image, w.encoded⟩
    · rw [herror] at hback
      cases hback
  · rintro ⟨⟨file, hfile⟩, image, himage⟩
    have hlength := (hlodged.shaped.rows_ofImage himage).1
    rw [hlodged.size, ← h.sized _ _ hfile] at hlength
    let w : WriteBack db page.id :=
      { page, file, image, cached := hcached, dirty := hdirty, registered := hfile
        home := (h.named _ _ hfile).symm, encoded := himage, length := hlength }
    exact ⟨true, w.result, w.performed⟩

theorem Housed.makeRoom_ok_iff (h : db.Housed) (hframes : 0 < db.pool.capacity) :
    (∃ db', makeRoom db = .ok () db') ↔
      ∀ page, db.pool.capacity ≤ db.pool.size → db.pool.queue.victim? = some page.id →
        db.pool.page? page.id = some page → page.isDirty = true →
          db.Registered page.id.table ∧ ∀ t ∈ page.tuples, t.Valid := by
  constructor
  · rintro ⟨db', hroom⟩ page hfull hfront hcached hdirty
    rw [makeRoom_of_full hfull, evict, Db.bind_run, Db.get_run] at hroom
    simp only [hfront, Db.bind_run] at hroom
    apply (h.writeBack_ok_iff hcached hdirty).mp
    cases hback : writeBack page.id db with
    | ok wrote middle => exact ⟨wrote, middle, rfl⟩
    | error e middle =>
      rw [hback] at hroom
      cases hroom
  · intro hwritable
    by_cases hroom : db.pool.size < db.pool.capacity
    · exact ⟨db, makeRoom_of_room hroom⟩
    · have hfull := Nat.le_of_not_lt hroom
      rw [makeRoom_of_full hfull]
      cases hqueue : db.pool.queue.order with
      | nil =>
        rw [h.inOrder.size_eq, hqueue] at hfull
        exact absurd hframes (Nat.not_lt_of_le hfull)
      | cons victim rest =>
        suffices hback : ∃ wrote db', writeBack victim db = .ok wrote db' by
          obtain ⟨wrote, db', hback⟩ := hback
          exact ⟨_, evict_of_writeBack hqueue hback⟩
        cases hcached : db.pool.page? victim with
        | none => exact ⟨false, db, writeBack_of_missing hcached⟩
        | some page =>
          cases hdirty : page.isDirty with
          | false => exact ⟨false, db, writeBack_of_clean hcached hdirty⟩
          | true =>
            have hid := (h.cached victim page hcached).identified
            subst hid
            have hfront : db.pool.queue.victim? = some page.id := by rw [Fifo.victim?, hqueue]; rfl
            exact (h.writeBack_ok_iff hcached hdirty).mpr (hwritable page hfull hfront hcached hdirty)

/-- A page of a registered table is served exactly if no page stands in its way that cannot be written
back. -/
theorem Housed.fetch_ok_iff (h : db.Housed) (hframes : 0 < db.pool.capacity) {id : PageId}
    {file : TableFile} (hfile : db.catalog.file id.table = .ok file)
    (hcheck : file.checkPage db.volume id = .ok ()) :
    (∃ frame db', fetch id db = .ok frame db') ↔
      ∀ page, db.Obstructs page id → db.Registered page.id.table ∧ ∀ t ∈ page.tuples, t.Valid := by
  cases hcached : db.pool.frames.get? id with
  | some frame =>
    refine iff_of_true ⟨frame, db, fetch_of_cached hcached⟩ fun page hpage => ?_
    have hmissing := hpage.missing
    rw [Pool.page?, hcached] at hmissing
    cases hmissing
  | none =>
    obtain ⟨page, hpage, _⟩ := file.pageOnDisk_eq_ok db.volume id.number
    let load : Load db id := ⟨file, page, hfile, hcheck, hpage⟩
    have hread : Turnover db load.read := .read file
    have hmade := (h.turnover hread).1.makeRoom_ok_iff hframes
    have hmissing := page?_eq_none hcached
    have hfetch : (∃ frame db', fetch id db = .ok frame db') ↔ ∃ db', makeRoom load.read = .ok () db' := by
      constructor
      · rintro ⟨frame, db', hfetch⟩
        rw [fetch_of_missing hcached hfile, readPage_of_counted hcheck hpage] at hfetch
        obtain ⟨_, middle, hroom, _⟩ := bind_eq_ok.mp hfetch
        exact ⟨middle, hroom⟩
      · rintro ⟨db', hroom⟩
        exact ⟨_, _, fetch_of_load load hcached hroom⟩
    rw [hfetch, hmade]
    constructor
    · intro hwritable front hfront
      exact hwritable front hfront.full hfront.front hfront.cached hfront.dirty
    · intro hwritable front hfull hfront hheld hdirty
      exact hwritable front ⟨hmissing, hfull, hfront, hheld, hdirty⟩

/-- Every cached tuple fits, and so does every row on disk of a file with the columns of its table. -/
structure Fitting (columns : TableId → List ColumnType) (db : Database) : Prop where
  housed : db.Housed
  typed : db.Typed fun table types => types = columns table
  valid : ∀ id page, db.pool.page? id = some page → ∀ t ∈ page.tuples, t.Valid
  holds : ∀ file : TableFile, file.pageSize = db.config.pageSize → file.schema.types = columns file.id →
    ∀ n row, some row ∈ file.rowsOnDisk db.volume n → file.Holds row

section
variable {columns : TableId → List ColumnType} {db' : Database}

theorem Fitting.replacing (h : db.Fitting columns) {id : PageId} {old page : Page}
    (hcached : db.pool.page? id = some old) (hvalid : ∀ t ∈ page.tuples, t.Valid) :
    ∀ other found, (db.replacing id page).pool.page? other = some found → ∀ t ∈ found.tuples, t.Valid := by
  intro other found hfound
  rw [page?_replacing hcached] at hfound
  split at hfound
  · cases hfound
    exact hvalid
  · exact h.valid other found hfound

theorem Fitting.holds_writeBack (h : db.Fitting columns) {id : PageId} (w : WriteBack db id)
    {file : TableFile} (hsize : file.pageSize = db.config.pageSize)
    (hcolumns : file.schema.types = columns file.id) {n : PageNo} {row : List Field}
    (hrow : some row ∈ file.rowsOnDisk w.result.volume n) : file.Holds row := by
  have hlodged := h.housed.cached id w.page w.cached
  change some row ∈ file.rowsOnDisk (w.file.pages.replace db.volume w.page.id.number w.image) n at hrow
  by_cases hid : file.id = w.file.id
  · have htable : id.table = file.id := by
      rw [hid]
      exact congrArg PageId.table (w.place h.housed.orderly).symm
    have hagrees : w.page.schema.Agrees file.schema := by
      have htypes := h.typed.cached id w.page w.cached
      rw [htable, ← hcolumns] at htypes
      exact htypes
    rw [← TableFile.pages_eq hid (hsize.trans (w.sized h.housed).symm),
      TableFile.rowsOnDisk_replace_of_agrees hlodged.shaped hagrees (hlodged.size.trans hsize.symm)
        w.encoded] at hrow
    split at hrow
    · exact (hlodged.shaped.valid_iff hagrees).mp (h.valid id w.page w.cached) row hrow
    · exact h.holds file hsize hcolumns n row hrow
  · rw [TableFile.rowsOnDisk_replace_other hid] at hrow
    exact h.holds file hsize hcolumns n row hrow

theorem Fitting.holds_append (h : db.Fitting columns) {last : TableFile}
    (hlast : last.pageSize = db.config.pageSize) (m : PageNo) {file : TableFile}
    (hsize : file.pageSize = db.config.pageSize) (hcolumns : file.schema.types = columns file.id)
    {n : PageNo} {row : List Field} (hrow : some row ∈ file.rowsOnDisk (db.appending last m).volume n) :
    file.Holds row := by
  change some row ∈ file.rowsOnDisk
    (last.pages.replace db.volume m (List.replicate last.pageSize 0)) n at hrow
  by_cases hid : file.id = last.id
  · rw [hlast, ← hsize, ← TableFile.pages_eq hid (hsize.trans hlast.symm),
      TableFile.rowsOnDisk_zeros] at hrow
    split at hrow
    · cases List.eq_of_mem_replicate hrow
    · exact h.holds file hsize hcolumns n row hrow
  · rw [TableFile.rowsOnDisk_replace_other hid] at hrow
    exact h.holds file hsize hcolumns n row hrow

theorem Fitting.act (h : db.Fitting columns) (hstep : Act Tuple.Valid db db') : db'.Fitting columns := by
  suffices hnew : (∀ id page, db'.pool.page? id = some page → ∀ t ∈ page.tuples, t.Valid) ∧
      ∀ file : TableFile, file.pageSize = db.config.pageSize → file.schema.types = columns file.id →
        ∀ n row, some row ∈ file.rowsOnDisk db'.volume n → file.Holds row by
    refine ⟨h.housed.act (fun _ => Tuple.Valid.complete) hstep, h.typed.act hstep, hnew.1, ?_⟩
    rw [hstep.sameSetup.config]
    exact hnew.2
  have hdrop (id : PageId) : ∀ other page, (db.without id).pool.page? other = some page →
      ∀ t ∈ page.tuples, t.Valid := fun other page hpage => h.valid other page (page?_of_without hpage)
  cases hstep with
  | turnover hturn =>
    cases hturn with
    | read file => exact ⟨h.valid, h.holds⟩
    | @writeBack id w =>
      refine ⟨fun other page hpage => ?_, fun file hsize hcolumns n row => h.holds_writeBack w hsize hcolumns⟩
      rw [w.page?_result] at hpage
      split at hpage
      · cases hpage
        exact h.valid id w.page w.cached
      · exact h.valid other page hpage
    | evict => exact ⟨hdrop _, h.holds⟩
    | @load id load _ _ =>
      refine ⟨fun other page hpage => ?_, h.holds⟩
      rw [page?_holding] at hpage
      split at hpage
      · cases hpage
        obtain ⟨hlodged, _, hformed, hrows⟩ := load.lodged h.housed
        have hfile := h.housed.registered load.registered
        have hagrees : load.page.schema.Agrees load.file.schema := congrArg Schema.types hformed.schema
        rw [hlodged.shaped.valid_iff hagrees, hrows]
        exact h.holds _ (h.housed.sized _ _ hfile) (h.typed.registered _ _ hfile) _
      · exact h.valid other page hpage
  | @insert txn id page slot t _ hcached _ hvalid _ =>
    refine ⟨h.replacing hcached fun u hu => ?_, h.holds⟩
    rcases List.mem_or_eq_of_mem_set (Page.mem_tuples.mp hu) with hold | hnew
    · exact h.valid id page hcached u (Page.mem_tuples.mpr hold)
    · cases hnew
      exact hvalid
  | @delete txn id page slot _ hcached _ =>
    refine ⟨h.replacing hcached fun u hu => ?_, h.holds⟩
    rcases List.mem_or_eq_of_mem_set (Page.mem_tuples.mp hu) with hold | hnew
    · exact h.valid id page hcached u (Page.mem_tuples.mpr hold)
    · cases hnew
  | @append last hlast =>
    have hsize := h.housed.sized _ _ hlast
    exact ⟨h.valid, fun file hfile hcolumns n row => h.holds_append hsize _ hfile hcolumns⟩
  | discard id => exact ⟨hdrop id, h.holds⟩

theorem Fitting.acts (h : db.Fitting columns) (hsteps : ReflTransGen (Act Tuple.Valid) db db') :
    db'.Fitting columns := by
  induction hsteps with
  | refl => exact h
  | tail _ hstep ih => exact ih.act hstep

theorem Fitting.leaves (h : db.Fitting columns) {use : Use} (huse : use.Edits Tuple.Valid)
    (hcolumns : use.Keeps fun table types => types = columns table) : (use.leaves db).Fitting columns := by
  cases use with
  | call c => exact h.acts (Call.leaves_acts (fun _ => Tuple.Valid.complete) huse h.housed)
  | create path name schema key =>
    have hhoused := h.housed.leaves (fun _ => Tuple.Valid.complete) huse
    have htyped := h.typed.leaves (fun _ => Tuple.Valid.complete) huse hcolumns h.housed
    rcases leaves_create_cases path name schema key db with
      ⟨opened, _, _, _, _, hleaves⟩ | ⟨_, hleaves⟩ <;> rw [hleaves] at hhoused htyped ⊢
    · refine ⟨hhoused, htyped, h.valid, fun file hsize hfile n row hrow => ?_⟩
      change some row ∈ file.rowsOnDisk (db.volume.touch opened.pages.name) n at hrow
      rw [TableFile.rowsOnDisk_of_bytes rfl rfl (Volume.bytes_touch _ _ _)] at hrow
      exact h.holds file hsize hfile n row hrow
    · exact h

theorem rowsOnDisk_of_empty {volume : Volume} (hempty : ∀ name, volume.bytes name = [])
    (file : TableFile) (n : PageNo) : file.rowsOnDisk volume n = List.replicate file.slotCount none := by
  have himage : file.pages.image volume n = List.replicate file.pageSize 0 := by
    rw [PageFile.image_eq, hempty, Bytes.readAt]
    simp [TableFile.pageSize]
  obtain ⟨page, hpage, _, _, _, hrows⟩ := file.pageOnDisk_eq_ok volume n
  rw [TableFile.pageOnDisk, himage] at hpage
  rw [← hrows, Page.rows_ofImage_zeros file n hpage]

theorem fitting_onVolume (config : Config) {volume : Volume} (hempty : ∀ name, volume.bytes name = []) :
    (onVolume config volume).Fitting columns := by
  refine ⟨housed_onVolume config volume, typed_onVolume config volume, ?_, ?_⟩
  · intro id page hpage
    cases hpage
  · intro file _ _ n row hrow
    change some row ∈ file.rowsOnDisk volume n at hrow
    rw [rowsOnDisk_of_empty hempty] at hrow
    cases List.eq_of_mem_replicate hrow

end

/-- The tables of dirty pages are registered. -/
def Anchored (db : Database) : Prop :=
  ∀ id page, db.pool.page? id = some page → page.isDirty = true → db.Registered id.table

theorem Anchored.replacing (h : db.Anchored) {id : PageId} {old page : Page}
    (hcached : db.pool.page? id = some old) (hid : db.Registered id.table) :
    (db.replacing id page).Anchored := by
  intro other found hfound hdirty
  rw [page?_replacing hcached] at hfound
  split at hfound
  · next hother =>
    rw [hother]
    exact hid
  · exact h other found hfound hdirty

theorem Anchored.act {accepts : Tuple → Prop} {db' : Database} (h : db.Anchored) (hhoused : db.Housed)
    (hstep : Act accepts db db') : db'.Anchored := by
  have hdrop (id : PageId) : (db.without id).Anchored := fun other page hpage =>
    h other page (page?_of_without hpage)
  cases hstep with
  | turnover hturn =>
    cases hturn with
    | read file => exact h
    | @writeBack id w =>
      intro other page hpage hdirty
      rw [w.page?_result] at hpage
      split at hpage
      · cases hpage
        cases hdirty
      · exact h other page hpage hdirty
    | evict => exact hdrop _
    | @load id load _ _ =>
      intro other page hpage hdirty
      rw [page?_holding] at hpage
      split at hpage
      · cases hpage
        rw [(load.lodged hhoused).2.1] at hdirty
        cases hdirty
      · exact h other page hpage hdirty
  | insert txn hfile hcached _ _ _ => exact h.replacing hcached hfile
  | delete txn hfile hcached _ => exact h.replacing hcached hfile
  | append => exact h
  | discard id => exact hdrop id

theorem Anchored.acts {accepts : Tuple → Prop} (haccepts : ∀ t, accepts t → t.Complete) {db' : Database}
    (h : db.Anchored) (hhoused : db.Housed) (hsteps : ReflTransGen (Act accepts) db db') :
    db'.Anchored := by
  induction hsteps with
  | refl => exact h
  | tail hsteps hstep ih => exact ih.act (hhoused.acts haccepts hsteps) hstep

theorem Anchored.leaves {accepts : Tuple → Prop} (haccepts : ∀ t, accepts t → t.Complete) {use : Use}
    (huse : use.Edits accepts) (hhoused : db.Housed) (h : db.Anchored) (hspares : use.SparesDirty db) :
    (use.leaves db).Anchored := by
  cases use with
  | create path name schema key =>
    rcases leaves_create_cases path name schema key db with
      ⟨file, hplace, _, _, _, hleaves⟩ | ⟨_, hleaves⟩ <;> rw [hleaves]
    · intro id page hpage hdirty
      obtain ⟨found, hfound⟩ := h id page hpage hdirty
      refine Catalog.file_addTable_of_registered hfound (fun hname => ?_) key
      obtain ⟨place, hresolved, htable⟩ := hspares id page hpage hdirty hname
      rw [hplace] at hresolved
      cases hresolved
      exact htable
    · exact h
  | call c => exact h.acts haccepts hhoused (Call.leaves_acts haccepts huse hhoused)

/-- A page of a registered table can be fetched exactly if each page that is in its way may go. -/
def FetchableIff (db : Database) (mayGo : Page → Prop) : Prop :=
  ∀ file n, db.catalog.file file.id = .ok file → n < file.numPages db.volume →
    ((∃ frame db', fetch ⟨file.id, n⟩ db = .ok frame db') ↔
      ∀ page, db.Obstructs page ⟨file.id, n⟩ → mayGo page)

/-- In every state of a run with a frame or more, the pages of the registered tables can be fetched unless
the page in front is dirty and cannot be written, as its table lost its registration or as a tuple does not
fit. From empty files, with valid tuples and columns that stay, only the registration counts; and if no
table with a dirty page loses its name, every page of every registered table can be fetched. -/
theorem fetchable_iff_front_writable {uses : List Use} (huses : ∀ use ∈ uses, use.Edits Tuple.Built)
    (config : Config) (hframes : 0 < config.poolPages) (volume : Volume) :
    let start := onVolume config volume
    let db := play uses start
    (db.FetchableIff fun page => db.Registered page.id.table ∧ ∀ t ∈ page.tuples, t.Valid) ∧
      ∀ columns : TableId → List ColumnType, (∀ name, volume.bytes name = []) →
        (∀ use ∈ uses, use.Edits Tuple.Valid ∧ use.Keeps fun table types => types = columns table) →
          (db.FetchableIff fun page => db.Registered page.id.table) ∧
            (EachUse Use.SparesDirty uses start → ∀ file n, db.catalog.file file.id = .ok file →
              n < file.numPages db.volume → ∃ frame db', fetch ⟨file.id, n⟩ db = .ok frame db') := by
  intro start db
  have hhoused : db.Housed := housed_play (fun _ => Tuple.Built.complete) huses config volume
  have hcapacity : db.pool.capacity = config.poolPages := by
    refine (play_induction (P := fun db => db.Housed ∧ db.pool.capacity = config.poolPages) ?_
      (eachUse_true uses start) ⟨housed_onVolume config volume, rfl⟩).2
    intro use hmem current _ h
    have hsizes := sizes_leaves (fun _ => Tuple.Built.complete) (huses use hmem) h.1
    exact ⟨h.1.leaves (fun _ => Tuple.Built.complete) (huses use hmem), hsizes.2.trans h.2⟩
  have hfetch : db.FetchableIff fun page => db.Registered page.id.table ∧ ∀ t ∈ page.tuples, t.Valid := by
    intro file n hfile hn
    exact hhoused.fetch_ok_iff (by rwa [hcapacity]) hfile (TableFile.checkPage_eq_ok.mpr ⟨rfl, hn⟩)
  refine ⟨hfetch, fun columns hempty hkeeps => ?_⟩
  have hfitting : db.Fitting columns := by
    apply play_induction _ (eachUse_true uses start) (fitting_onVolume config hempty)
    intro use hmem current _ h
    exact h.leaves (hkeeps use hmem).1 (hkeeps use hmem).2
  have hregistered : db.FetchableIff fun page => db.Registered page.id.table := by
    intro file n hfile hn
    rw [hfetch file n hfile hn]
    refine forall₂_congr fun page hpage => and_iff_left ?_
    exact hfitting.valid page.id page hpage.cached
  refine ⟨hregistered, fun hspares file n hfile hn => ?_⟩
  have hanchored : db.Anchored := by
    have hempty : start.Anchored := by rintro id page ⟨⟩
    refine (play_induction (P := fun db => db.Housed ∧ db.Anchored) ?_ hspares
      ⟨housed_onVolume config volume, hempty⟩).2
    intro use hmem current hspares h
    exact ⟨h.1.leaves (fun _ => Tuple.Built.complete) (huses use hmem),
      h.2.leaves (fun _ => Tuple.Built.complete) (huses use hmem) h.1 hspares⟩
  apply (hregistered file n hfile hn).mpr
  intro page hpage
  exact hanchored page.id page hpage.cached hpage.dirty

/-- With one frame, an insert into the second table writes the dirty page of the first one back, and then
the second table gives its name away after its page was committed. -/
theorem fetchable_iff_front_writable_one_frame :
    let schema : Schema := ⟨[{ type := .integer, name := some "a" }], List.cons_ne_nil _ _⟩
    let config : Config := { pageSize := 32, poolPages := 1 }
    let start := onVolume config {}
    let uses : List Use := [.create "s" "s" schema "a",
      .call (.insert ⟨1⟩ (.file "s") ⟨schema, [.int 7], none⟩), .create "t" "t" schema "a",
      .call (.insert ⟨1⟩ (.file "t") ⟨schema, [.int 8], none⟩), .call (.complete ⟨1⟩ true),
      .create "u" "t" schema "a"]
    let db := play uses start
    (∀ use ∈ uses, use.Edits Tuple.Built) ∧ 0 < config.poolPages ∧
      (∀ name, ({} : Volume).bytes name = []) ∧
        (∀ use ∈ uses, use.Edits Tuple.Valid ∧ use.Keeps fun _ types => types = [.integer]) ∧
          EachUse Use.SparesDirty uses start ∧
            (∀ file, db.catalog.file file.id = .ok file → 0 < file.numPages db.volume →
              ∃ frame db', fetch ⟨file.id, 0⟩ db = .ok frame db') ∧
              db.FetchableIff fun page => db.Registered page.id.table ∧ ∀ t ∈ page.tuples, t.Valid := by
  intro schema config start uses db
  have hbuilt : ∀ use ∈ uses, use.Edits Tuple.Built := by
    have hseven : Tuple.ofFields schema [.int 7] = .ok ⟨schema, [.int 7], none⟩ := rfl
    have height : Tuple.ofFields schema [.int 8] = .ok ⟨schema, [.int 8], none⟩ := rfl
    simp only [uses, List.forall_mem_cons]
    exact ⟨trivial, .ofFields hseven, trivial, .ofFields height, trivial, trivial, List.forall_mem_nil _⟩
  have hframes : 0 < config.poolPages := Nat.one_pos
  have hempty : ∀ name, ({} : Volume).bytes name = [] := fun _ => rfl
  have hkeeps : ∀ use ∈ uses, use.Edits Tuple.Valid ∧ use.Keeps fun _ types => types = [.integer] := by
    have hseven : (⟨schema, [.int 7], none⟩ : Tuple).Valid := by decide
    have height : (⟨schema, [.int 8], none⟩ : Tuple).Valid := by decide
    have hcolumns : schema.types = [.integer] := rfl
    simp [uses, Use.Edits, Use.Keeps, Call.Edits, hseven, height, hcolumns]
  have hspares : EachUse Use.SparesDirty uses start := by
    refine ⟨Use.sparesDirty_create ?_, trivial, Use.sparesDirty_create ?_, trivial, trivial,
      Use.sparesDirty_create ?_, trivial⟩
    all_goals decide +kernel
  obtain ⟨hfetch, hrest⟩ := fetchable_iff_front_writable hbuilt config hframes {}
  obtain ⟨_, hall⟩ := hrest (fun _ => [.integer]) hempty hkeeps
  exact ⟨hbuilt, hframes, hempty, hkeeps, hspares, fun file => hall hspares file 0, hfetch⟩

/-- A table with a dirty page loses its name, and then the only frame cannot be emptied: the first page of
another table, which is registered, cannot be fetched. -/
theorem fetch_fails_after_name_taken :
    let schema : Schema := ⟨[{ type := .integer, name := some "a" }], List.cons_ne_nil _ _⟩
    let start := onVolume { pageSize := 32, poolPages := 1 } {}
    let uses : List Use := [.create "b.dat" "u" schema "a",
      .call (.insert ⟨1⟩ (.file "b.dat") ⟨schema, [.int 7], none⟩), .call (.complete ⟨1⟩ true),
      .create "a.dat" "t" schema "a", .call (.insert ⟨1⟩ (.file "a.dat") ⟨schema, [.int 8], none⟩),
      .create "c.dat" "t" schema "a"]
    let db := play uses start
    (∀ use ∈ uses, use.Edits Tuple.Valid) ∧
      ∃ file, db.catalog.file file.id = .ok file ∧ 0 < file.numPages db.volume ∧
        (∃ db', fetch ⟨file.id, 0⟩ db = .error (.error (.tableNotFound (.file "a.dat"))) db') ∧
          ¬ ∃ frame db', fetch ⟨file.id, 0⟩ db = .ok frame db' := by
  intro schema start uses db
  have hvalid : ∀ use ∈ uses, use.Edits Tuple.Valid := by
    have hseven : (⟨schema, [.int 7], none⟩ : Tuple).Valid := by decide
    have height : (⟨schema, [.int 8], none⟩ : Tuple).Valid := by decide
    simp [uses, Use.Edits, Call.Edits, hseven, height]
  have hregistered : ((db.catalog.tables.get? (.file "b.dat")).map fun entry =>
      decide (entry.file.id = .file "b.dat" ∧ 0 < entry.file.numPages db.volume)) = some true := by
    decide +kernel
  have hfails : outcome (fetch ⟨.file "b.dat", 0⟩ db) =
      .error (.error (.tableNotFound (.file "a.dat"))) := by decide +kernel
  obtain ⟨entry, hentry, hboth⟩ := Option.map_eq_some_iff.mp hregistered
  obtain ⟨hid, hcounted⟩ := of_decide_eq_true hboth
  refine ⟨hvalid, entry.file, ?_, hcounted, ?_⟩
  · rw [hid, Catalog.file, Catalog.entry, hentry]
    rfl
  · rw [hid]
    obtain ⟨db', hrun⟩ := exists_error_of_outcome hfails
    refine ⟨⟨db', hrun⟩, ?_⟩
    rintro ⟨frame, db'', hok⟩
    rw [hrun] at hok
    cases hok

end Database
end RowStore
