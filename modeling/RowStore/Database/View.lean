import RowStore.Database.Table

/-!
# What a database holds

Readers see one page for each page number of a registered table: the cached page if there is one,
and otherwise the page on disk. The main statement says that a fetch answers exactly this page.
-/
namespace RowStore.Database

/-- The page as the registered file has it on disk. -/
def pageOnDisk? (db : Database) (id : PageId) : Option Page :=
  match db.catalog.file id.table with
  | .error _ => none
  | .ok file =>
    match file.checkPage db.volume id with
    | .error _ => none
    | .ok () => (file.pageOnDisk db.volume id.number).toOption

/-- The page as readers see it. -/
def page? (db : Database) (id : PageId) : Option Page := (db.pool.page? id).or (db.pageOnDisk? id)

/-- The numbers of the first `count` pages. -/
def pageNumbers (count : UInt32) : List PageNo := (List.range count.toNat).map UInt32.ofNat

/-- The tuples that a scan of the file sees, page by page in slot order. -/
def tuplesOf (db : Database) (file : TableFile) : List Tuple :=
  (pageNumbers (file.numPages db.volume)).flatMap fun n =>
    ((db.page? ⟨file.id, n⟩).map Page.tuples).getD []

theorem page?_of_cached {db : Database} {id : PageId} {page : Page}
    (h : db.pool.page? id = some page) : db.page? id = some page := by
  rw [page?, h, Option.some_or]

theorem pageOnDisk?_of_readPage {db db' : Database} {file : TableFile} {id : PageId} {page : Page}
    (hfile : db.catalog.file id.table = .ok file) (h : readPage file id db = .ok page db') :
    db.pageOnDisk? id = some page := by
  rw [pageOnDisk?, hfile]
  unfold readPage at h
  cases hcheck : file.checkPage db.volume id with
  | error e => simp [hcheck] at h
  | ok _ =>
    simp only [hcheck] at h ⊢
    cases hpage : file.pageOnDisk db.volume id.number with
    | error e => simp [lift, hpage] at h
    | ok found =>
      simp only [lift, hpage, EStateM.Result.ok.injEq] at h
      rw [h.1]
      rfl

theorem page_of_install {db db' : Database} {page : Page} {frame : Frame}
    (h : install page db = .ok frame db') : frame.page = page := by
  simp only [install, Db.bind_run] at h
  split at h
  · cases h
    rfl
  · cases h

/-- A fetch answers the page that readers see. -/
theorem page?_of_fetch {db db' : Database} {id : PageId} {frame : Frame}
    (h : fetch id db = .ok frame db') : db.page? id = some frame.page := by
  cases hframe : db.pool.frames.get? id with
  | some cached =>
    rw [fetch_of_cached hframe] at h
    cases h
    exact page?_of_cached (by rw [Pool.page?, hframe]; rfl)
  | none =>
    cases hfile : db.catalog.file id.table with
    | error e =>
      rw [fetch_of_unregistered hframe hfile] at h
      cases h
    | ok file =>
      rw [fetch_of_missing hframe hfile] at h
      cases hread : readPage file id db with
      | error e s => simp [hread] at h
      | ok page s =>
        simp only [hread] at h
        rw [page_of_install h, page?, Pool.page?, hframe, pageOnDisk?_of_readPage hfile hread]
        rfl

end RowStore.Database
