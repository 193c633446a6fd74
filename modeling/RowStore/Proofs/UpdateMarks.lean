import Mathlib.Control.Monad.Basic
import RowStore.Proofs.Durability
import RowStore.Proofs.FifoDiscipline
import RowStore.Proofs.Requests
import RowStore.Proofs.TornPages

/-!
# Updates and their marks

An update makes calls on a page one after the other and stops at the first that fails; the mark is set
only when none has. So an update that fails has made the calls before the failing one without marking
the page, and it tears the page exactly if the page was clean and these calls have changed its contents.
An update that succeeds tears none.
-/
namespace RowStore
open Relation Database

namespace PageCall

/-- The call inserts or deletes a tuple. -/
def OfRows : PageCall → Prop
  | .insert t => t.Built
  | .delete _ => True
  | .markDirty _ | .markClean => False

theorem OfRows.proper {call : PageCall} (h : call.OfRows) : call.Proper := by
  cases call with
  | insert t => exact h
  | delete t => trivial
  | markDirty txn => exact h.elim
  | markClean => exact h.elim

theorem OfRows.left_eq {call : PageCall} (h : call.OfRows) {page left : Page} {e : StoreError}
    (hperform : call.perform page = .error e left) : left = page := by
  cases call with
  | insert t => exact Page.insertEdit_eq_error hperform
  | delete t => exact Page.delete_eq_error hperform
  | markDirty txn => exact h.elim
  | markClean => exact h.elim

theorem OfRows.dirtiedBy_leaves {call : PageCall} (h : call.OfRows) (page : Page) :
    (call.leaves page).dirtiedBy = page.dirtiedBy := by
  rw [leaves]
  cases hperform : call.perform page with
  | error e left => rw [h.left_eq hperform]
  | ok _ left =>
    cases call with
    | insert t =>
      obtain ⟨_, slot, _, rfl⟩ := Page.insertEdit_eq_ok.mp hperform
      rfl
    | delete t =>
      obtain ⟨record, _, _, _, rfl⟩ := Page.delete_eq_ok.mp hperform
      rfl
    | markDirty txn => exact h.elim
    | markClean => exact h.elim

/-- The calls made one after the other, up to the first that fails. -/
def sequence (calls : List PageCall) : PageEdit Unit := calls.forM perform

theorem sequence_cons (call : PageCall) (calls : List PageCall) (page : Page) :
    sequence (call :: calls) page =
      match call.perform page with
      | .ok _ left => sequence calls left
      | .error e left => .error e left := by
  change EStateM.bind call.perform (fun _ => sequence calls) page = _
  rw [EStateM.bind]
  cases call.perform page <;> rfl

/-- The calls that are made before one fails. -/
def applied : List PageCall → Page → List PageCall
  | [], _ => []
  | call :: calls, page =>
    match call.perform page with
    | .ok _ left => call :: applied calls left
    | .error _ _ => []

theorem applied_prefix_calls (calls : List PageCall) (page : Page) : applied calls page <+: calls := by
  induction calls generalizing page with
  | nil => exact List.prefix_rfl
  | cons call calls ih =>
    rw [applied]
    split
    · exact List.cons_prefix_cons.mpr ⟨rfl, ih _⟩
    · exact List.nil_prefix

theorem edited_sequence {calls : List PageCall} (hcalls : ∀ call ∈ calls, call.OfRows) (page : Page) :
    page.edited (sequence calls) = Page.run (applied calls page) page := by
  induction calls generalizing page with
  | nil => rfl
  | cons call calls ih =>
    rw [Page.edited, sequence_cons, applied]
    cases hperform : call.perform page with
    | error e left => exact (hcalls call List.mem_cons_self).left_eq hperform
    | ok _ left =>
      have hleaves : call.leaves page = left := by rw [leaves, hperform]
      have hrest := ih (fun other hmem => hcalls other (List.mem_cons_of_mem _ hmem)) left
      rwa [← hleaves] at hrest ⊢

theorem handles_sequence {calls : List PageCall} (hcalls : ∀ call ∈ calls, call.OfRows) :
    Page.Handles (sequence calls) := by
  intro page
  refine ⟨applied calls page, fun call hmem => ?_, edited_sequence hcalls page⟩
  exact (hcalls call ((applied_prefix_calls calls page).subset hmem)).proper

theorem dirtiedBy_run {calls : List PageCall} (hcalls : ∀ call ∈ calls, call.OfRows) (page : Page) :
    (Page.run calls page).dirtiedBy = page.dirtiedBy := by
  induction calls generalizing page with
  | nil => rfl
  | cons call calls ih =>
    rw [Page.run, ih (fun other hmem => hcalls other (List.mem_cons_of_mem _ hmem)),
      (hcalls call List.mem_cons_self).dirtiedBy_leaves]

end PageCall

namespace Page

/-- The calls before the first that fails change the contents of the page. -/
def ChangedBy (page : Page) (calls : List PageCall) : Prop :=
  ¬ page.SameContents (run (PageCall.applied calls page) page)

end Page

namespace Database
variable {db db' : Database}

/-- No page is torn, those apart that are cached in another size than their file has now. -/
def Whole (db : Database) : Prop := ∀ id, db.Fits id → ¬ db.Torn id

theorem Whole.turnovers (h : db.Whole) (horderly : db.Orderly) (hsteps : ReflTransGen Turnover db db') :
    db'.Whole := by
  intro id hfits htorn
  obtain ⟨hbefore, hpool⟩ := torn_of_turnovers horderly hsteps hfits htorn
  exact h id (hfits.of_same (sameSetup_of_turnovers hsteps).catalog.symm hpool.symm) hbefore

theorem fits_of_fetch (h : db.Orderly) {id : PageId} {frame : Frame}
    (hfetch : fetch id db = .ok frame db') : db'.Fits id ↔ db.Fits id := by
  have hcatalog := (sameSetup_of_turnovers (h.fetched hfetch).1).catalog
  rcases fetch_cases id db with ⟨found, _, hfound⟩ | ⟨hmiss, load, middle, _, hload⟩ | ⟨e, herror⟩ |
    ⟨file, e, herror⟩
  · rw [hfound] at hfetch
    cases hfetch
    rfl
  · rw [hload] at hfetch
    cases hfetch
    refine iff_of_true (fun page file hcached hfile => ?_) fun page file hcached _ => ?_
    · rw [page?_holding, if_pos load.page_id.symm] at hcached
      cases hcached
      rw [hcatalog, load.registered] at hfile
      cases hfile
      exact load.within.2.2.1.size
    · rw [page?_eq_none hmiss] at hcached
      cases hcached
  · rw [herror] at hfetch
    cases hfetch
  · rw [herror] at hfetch
    cases hfetch

theorem torn_replacing_iff {id : PageId} {old page : Page} (hcached : db.pool.page? id = some old)
    (other : PageId) : (db.replacing id page).Torn other ↔
      if other = id then page.isDirty = false ∧ ¬ (page.onDisk db.volume).SameContents page
      else db.Torn other := by
  have hpool := page?_replacing hcached page other
  split
  · next hother =>
    rw [if_pos hother] at hpool
    exact torn_iff_of_cached hpool
  · next hother =>
    rw [if_neg hother] at hpool
    exact ⟨torn_of_same hpool fun _ _ => rfl, torn_of_same hpool.symm fun _ _ => rfl⟩

theorem fits_replacing_iff {id : PageId} {old page : Page} (hcached : db.pool.page? id = some old)
    (hsize : page.size = old.size) (other : PageId) :
    (db.replacing id page).Fits other ↔ db.Fits other := by
  have hpool := page?_replacing hcached page other
  by_cases hother : other = id
  · rw [if_pos hother] at hpool
    subst hother
    constructor
    · intro hfits found file hfound hfile
      rw [hcached] at hfound
      cases hfound
      rw [← hsize]
      exact hfits page file hpool hfile
    · intro hfits found file hfound hfile
      rw [hpool] at hfound
      cases hfound
      rw [hsize]
      exact hfits old file hcached hfile
  · rw [if_neg hother] at hpool
    exact ⟨fun hfits => hfits.of_same rfl hpool.symm, fun hfits => hfits.of_same rfl hpool⟩

theorem Whole.replacing_dirty (h : db.Whole) {id : PageId} {old page : Page}
    (hcached : db.pool.page? id = some old) (hsize : page.size = old.size) (hdirty : page.isDirty = true) :
    (db.replacing id page).Whole := by
  intro other hfits htorn
  rw [fits_replacing_iff hcached hsize] at hfits
  rw [torn_replacing_iff hcached] at htorn
  split at htorn
  · rw [hdirty] at htorn
    cases htorn.1
  · exact h other hfits htorn

/-- A page with the old mark in the frame keeps the pages whole exactly if it was marked, had another size
than its file, or has the old contents. -/
theorem Whole.replacing_iff (h : db.Whole) (horderly : db.Orderly) {id : PageId} {old page : Page}
    (hcached : db.pool.page? id = some old) (halike : old.Alike page)
    (hmark : page.dirtiedBy = old.dirtiedBy) :
    (db.replacing id page).Whole ↔
      ¬ (db.Fits id ∧ old.isDirty = false ∧ ¬ old.SameContents page) := by
  have hshaped := (horderly.cached id old hcached).shaped
  have hclean : page.isDirty = old.isDirty := by rw [Page.isDirty, hmark, Page.isDirty]
  have hdisk : page.onDisk db.volume = old.onDisk db.volume :=
    Page.onDisk_congr halike.id halike.schema halike.size db.volume
  have hagrees : old.schema.Agrees page.schema := by
    rw [halike.schema]
    rfl
  -- Where the page fits and is clean it is what is on disk, so the new page is torn if it differs from it.
  have htorn (hfits : db.Fits id) : (db.replacing id page).Torn id ↔
      old.isDirty = false ∧ ¬ old.SameContents page := by
    rw [torn_replacing_iff hcached, if_pos rfl, hclean, and_congr_right_iff]
    intro hold
    have hsame : (old.onDisk db.volume).rows = old.rows := by
      have hwhole := h id hfits
      rw [torn_iff_of_cached hcached, not_and, Classical.not_not] at hwhole
      exact (hwhole hold).rows_eq
    rw [halike.shaped.sameContents_onDisk_iff, hdisk, hsame,
      hshaped.sameContents_iff halike.shaped halike.id.symm hagrees]
  constructor
  · rintro hwhole ⟨hfits, hbroken⟩
    exact hwhole id ((fits_replacing_iff hcached halike.size id).mpr hfits) ((htorn hfits).mpr hbroken)
  · intro hkept other hfits hother
    rw [fits_replacing_iff hcached halike.size] at hfits
    by_cases hid : other = id
    · subst hid
      exact hkept ⟨hfits, (htorn hfits).mp hother⟩
    · rw [torn_replacing_iff hcached, if_neg hid] at hother
      exact h other hfits hother

theorem page?_of_fetch_error (h : db.Orderly) {id : PageId} {e : Fault}
    (hfetch : fetch id db = .error e db') (other : PageId) : db'.page? other = db.page? other := by
  obtain ⟨hpool, hvolume⟩ := fetch_failure hfetch
  have hpages := (h.fetch_turnovers id).1
  rw [after_of_error hfetch] at hpages
  rw [page?, page?, pageOnDisk?, pageOnDisk?, hpool, hvolume, (sameSetup_of_turnovers hpages).catalog]

theorem Whole.fetch_error (h : db.Whole) (horderly : db.Orderly) {id : PageId} {e : Fault}
    (hfetch : fetch id db = .error e db') : db'.Whole := by
  have hpages := (horderly.fetch_turnovers id).1
  rw [after_of_error hfetch] at hpages
  exact h.turnovers horderly hpages

theorem Orderly.alike_sequence (h : db.Orderly) {id : PageId} {frame : Frame}
    (hfetch : Database.fetch id db = .ok frame db') {calls : List PageCall}
    (hcalls : ∀ call ∈ calls, call.OfRows) :
    frame.page.Alike (frame.page.edited (PageCall.sequence calls)) := by
  obtain ⟨_, hfetched, hcached⟩ := h.fetched hfetch
  exact (hfetched.cached id _ hcached).shaped.alike_edited (PageCall.handles_sequence hcalls)

theorem Whole.update_ok (h : db.Whole) (horderly : db.Orderly) {txn : TransactionId} {id : PageId}
    {calls : List PageCall} (hcalls : ∀ call ∈ calls, call.OfRows) {frame : Frame}
    (hupdate : update txn id (PageCall.sequence calls) db = .ok frame db') : db'.Whole := by
  cases hfetch : fetch id db with
  | error e middle =>
    rw [update_of_fetch_error hfetch] at hupdate
    cases hupdate
  | ok found middle =>
    have halike := horderly.alike_sequence hfetch hcalls
    obtain ⟨hpages, _, hcached⟩ := horderly.fetched hfetch
    cases hrun : PageCall.sequence calls found.page with
    | error e left =>
      rw [update_of_edit_error hfetch hrun] at hupdate
      cases hupdate
    | ok _ left =>
      rw [Page.edited_of_ok hrun] at halike
      rw [update_of_edit_ok hfetch hrun] at hupdate
      cases hupdate
      have hsize : (left.markDirty txn).size = found.page.size := halike.size
      exact (h.turnovers horderly hpages).replacing_dirty hcached hsize rfl

theorem Whole.edit_error (h : db.Whole) (horderly : db.Orderly) {id : PageId} {calls : List PageCall}
    (hcalls : ∀ call ∈ calls, call.OfRows) {frame : Frame} (hfetch : fetch id db = .ok frame db')
    {left : Page} {e : StoreError} (hrun : PageCall.sequence calls frame.page = .error e left) :
    ((db'.replacing id left).Whole ↔
      ¬ (db.Fits id ∧ frame.page.isDirty = false ∧ frame.page.ChangedBy calls)) ∧
    ((db'.replacing id left).page? id = some left) ∧
      (frame.page.SameContents left ↔ ¬ frame.page.ChangedBy calls) := by
  have halike := horderly.alike_sequence hfetch hcalls
  obtain ⟨hpages, hfetched, hcached⟩ := horderly.fetched hfetch
  have hleft := PageCall.edited_sequence hcalls frame.page
  rw [Page.edited_of_error hrun] at halike hleft
  have hmark : left.dirtiedBy = frame.page.dirtiedBy := by
    rw [hleft]
    refine PageCall.dirtiedBy_run (fun call hmem => hcalls call ?_) _
    exact (PageCall.applied_prefix_calls calls frame.page).subset hmem
  refine ⟨?_, ?_, ?_⟩
  · rw [(h.turnovers horderly hpages).replacing_iff hfetched hcached halike hmark,
      fits_of_fetch horderly hfetch, Page.ChangedBy, ← hleft]
  · apply page?_of_cached
    rw [page?_replacing hcached, if_pos rfl]
  · rw [Page.ChangedBy, ← hleft, Classical.not_not]

/-- Where no page is torn, an update by inserts and deletes that succeeds tears none, and one that fails
tears one exactly if it had changed the contents of a page without a mark. The contents are then what they
were before exactly if they had not been changed. -/
theorem update_whole_iff (h : db.Reachable) (hwhole : db.Whole) (txn : TransactionId) {id : PageId}
    {page : Page} (hpage : db.page? id = some page) {calls : List PageCall}
    (hcalls : ∀ call ∈ calls, call.OfRows) :
    (∀ frame db', update txn id (PageCall.sequence calls) db = .ok frame db' → db'.Whole) ∧
      ∀ e db', update txn id (PageCall.sequence calls) db = .error e db' →
        (db'.Whole ↔ ¬ ((∃ frame middle, fetch id db = .ok frame middle) ∧ db.Fits id ∧
          page.isDirty = false ∧ page.ChangedBy calls)) ∧
        (Option.Rel Page.SameContents (db.page? id) (db'.page? id) ↔
          ¬ ((∃ frame middle, fetch id db = .ok frame middle) ∧ page.ChangedBy calls)) := by
  have horderly := h.orderly
  refine ⟨fun frame db' hupdate => hwhole.update_ok horderly hcalls hupdate, fun e db' hupdate => ?_⟩
  cases hfetch : fetch id db with
  | error fault middle =>
    rw [update_of_fetch_error hfetch] at hupdate
    cases hupdate
    refine ⟨iff_of_true (hwhole.fetch_error horderly hfetch) nofun, iff_of_true ?_ nofun⟩
    rw [page?_of_fetch_error horderly hfetch, hpage]
    exact .some (.refl page)
  | ok frame middle =>
    have hframe := page?_of_fetch hfetch
    rw [hpage, Option.some.injEq] at hframe
    subst hframe
    cases hrun : PageCall.sequence calls frame.page with
    | ok _ left =>
      rw [update_of_edit_ok hfetch hrun] at hupdate
      cases hupdate
    | error fault left =>
      rw [update_of_edit_error hfetch hrun] at hupdate
      cases hupdate
      obtain ⟨hafter, hnew, hsame⟩ := hwhole.edit_error horderly hcalls hfetch hrun
      have hfetched : ∃ found last, (.ok frame middle : EStateM.Result Fault Database Frame) =
          .ok found last := ⟨_, _, rfl⟩
      simp only [hafter, hpage, hnew, hsame, hfetched, true_and, Option.rel_some_some, and_self]

theorem Orderly.not_torn (h : db.Orderly) (hframes : ∀ entry ∈ db.pool.frames.entries,
    entry.2.page.isDirty = false → (entry.2.page.onDisk db.volume).rows = entry.2.page.rows)
    (id : PageId) : ¬ db.Torn id := by
  intro htorn
  obtain ⟨page, hcached, hclean, hdiffers⟩ := htorn
  rw [(h.cached id page hcached).shaped.sameContents_onDisk_iff] at hdiffers
  obtain ⟨frame, hframe, hpage⟩ := Option.map_eq_some_iff.mp hcached
  subst hpage
  exact hdiffers (hframes (id, frame) (Assoc.mem_entries_of_get? hframe) hclean)

/-- The only row of the table is committed, and its page is still cached. -/
def committedSeven : Database := run [insertInteger ⟨1⟩ 7, .complete ⟨1⟩ true] oneColumn

theorem reachable_committedSeven : committedSeven.Reachable := by
  have hone : oneColumn.Reachable := reachable_withTable _ _ _
  refine hone.run ?_
  simp [insertInteger, Call.Proper, Call.Edits, Tuple.built_integer]

theorem whole_committedSeven : committedSeven.Whole :=
  fun id _ => reachable_committedSeven.orderly.not_torn (by decide +kernel) id

/-- A delete of an empty slot fails before the insert that follows is made. -/
theorem update_whole_iff_empty_slot :
    let schema : Schema := ⟨[{ type := .integer }], List.cons_ne_nil _ _⟩
    let calls : List PageCall := [.delete ⟨schema, [.int 8], some ⟨⟨.file "t", 0⟩, 1⟩⟩,
      .insert ⟨schema, [.int 8], none⟩]
    committedSeven.Reachable ∧ committedSeven.Whole ∧ (∀ call ∈ calls, call.OfRows) ∧
      ∃ page e db', committedSeven.page? ⟨.file "t", 0⟩ = some page ∧
        update ⟨2⟩ ⟨.file "t", 0⟩ (PageCall.sequence calls) committedSeven = .error e db' ∧ db'.Whole ∧
        Option.Rel Page.SameContents (committedSeven.page? ⟨.file "t", 0⟩) (db'.page? ⟨.file "t", 0⟩) := by
  intro schema calls
  have hcalls : ∀ call ∈ calls, call.OfRows := by simp [calls, PageCall.OfRows, schema, Tuple.built_integer]
  have hsome : (committedSeven.page? ⟨.file "t", 0⟩).isSome = true := by decide +kernel
  obtain ⟨page, hpage⟩ := Option.isSome_iff_exists.mp hsome
  have hfails : outcome (update ⟨2⟩ ⟨.file "t", 0⟩ (PageCall.sequence calls) committedSeven) =
      .error (.error (.emptySlot ⟨.file "t", 0⟩ 1)) := by
    decide +kernel
  obtain ⟨db', hupdate⟩ := exists_error_of_outcome hfails
  have hlaw :=
    (update_whole_iff reachable_committedSeven whole_committedSeven ⟨2⟩ hpage hcalls).2 _ db' hupdate
  have hkept : ¬ page.ChangedBy calls := by
    have hnone : (committedSeven.page? ⟨.file "t", 0⟩).all fun page =>
        (PageCall.applied calls page).isEmpty := by
      decide +kernel
    rw [hpage, Option.all_some, List.isEmpty_iff] at hnone
    rw [Page.ChangedBy, hnone, Classical.not_not]
    exact .refl page
  refine ⟨reachable_committedSeven, whole_committedSeven, hcalls, page, _, db', hpage, hupdate, ?_, ?_⟩
  · exact hlaw.1.mpr fun h => hkept h.2.2.2
  · exact hlaw.2.mpr fun h => hkept h.2

/-- An update deletes the only row and fails to delete it once more. The cached page has lost the row and
has no mark, while the page on disk has it. -/
theorem deleted_row_without_mark :
    let schema : Schema := ⟨[{ type := .integer }], List.cons_ne_nil _ _⟩
    let stored : Tuple := ⟨schema, [.int 7], some ⟨⟨.file "t", 0⟩, 0⟩⟩
    let calls : List PageCall := [.delete stored, .delete stored]
    committedSeven.Reachable ∧ committedSeven.Whole ∧ (∀ call ∈ calls, call.OfRows) ∧
      ∃ e db', update ⟨2⟩ ⟨.file "t", 0⟩ (PageCall.sequence calls) committedSeven = .error e db' ∧
        ¬ db'.Whole ∧
        ¬ Option.Rel Page.SameContents (committedSeven.page? ⟨.file "t", 0⟩)
          (db'.page? ⟨.file "t", 0⟩) := by
  intro schema stored calls
  have hcalls : ∀ call ∈ calls, call.OfRows := by simp [calls, PageCall.OfRows]
  have hfails : outcome (update ⟨2⟩ ⟨.file "t", 0⟩ (PageCall.sequence calls) committedSeven) =
      .error (.error (.emptySlot ⟨.file "t", 0⟩ 0)) := by
    decide +kernel
  obtain ⟨db', hupdate⟩ := exists_error_of_outcome hfails
  have hleft := after_of_error hupdate
  refine ⟨reachable_committedSeven, whole_committedSeven, hcalls, _, db', hupdate, fun hwhole => ?_,
    fun hrel => ?_⟩
  · refine hwhole ⟨.file "t", 0⟩ (fits_of_sizes ?_) (torn_of_rows ?_)
    · rw [← hleft]
      decide +kernel
    · rw [← hleft]
      decide +kernel
  · have hrows := Page.rows_eq_of_rel hrel
    rw [← hleft] at hrows
    revert hrows
    decide +kernel

/-- Pages of another size have to be left out: the first page of 32 bytes is cached when its file is
registered anew with pages of 8 bytes, and an update writes one of these back over it. -/
theorem torn_in_another_size :
    let schema : Schema := ⟨[{ type := .integer }], List.cons_ne_nil _ _⟩
    let wide : TableFile := ⟨0, ⟨"t", 32⟩, schema, by decide, by decide⟩
    let narrow : TableFile := ⟨1, ⟨"t", 8⟩, schema, by decide, by decide⟩
    let stored := run [insertInteger ⟨1⟩ 7, insertInteger ⟨1⟩ 8, insertInteger ⟨1⟩ 9, .complete ⟨1⟩ true,
      .discard ⟨.file "t", 0⟩] (withTable { pageSize := 32, poolPages := 2 } "t" schema)
    let changed := (Call.update ⟨1⟩ ⟨.file "t", 1⟩ (insertEdit ⟨schema, [.int 5], none⟩)).leaves
      (after (addTable narrow "t" "") stored)
    let fetched := (Call.fetch ⟨.file "t", 0⟩).leaves (after (addTable wide "t" "") changed)
    let db := after (addTable narrow "t" "") fetched
    db.Reachable ∧ (∀ id, ¬ db.Torn id) ∧
      ∃ frame db', update ⟨1⟩ ⟨.file "t", 2⟩ (PageCall.sequence []) db = .ok frame db' ∧
        db'.Torn ⟨.file "t", 0⟩ := by
  intro schema wide narrow stored changed fetched db
  have hstored : stored.Reachable := by
    refine (reachable_withTable _ _ _).run ?_
    simp [insertInteger, Call.Proper, Call.Edits, Tuple.built_integer]
  have hchanged : changed.Reachable :=
    (hstored.request (.register narrow "t" "") trivial).request
      (.use (.call (.update ⟨1⟩ ⟨.file "t", 1⟩ (insertEdit ⟨schema, [.int 5], none⟩))))
      (Page.handles_perform (.insert _) (Tuple.built_integer 5))
  have hfetched : fetched.Reachable :=
    (hchanged.request (.register wide "t" "") trivial).request (.use (.call (.fetch ⟨.file "t", 0⟩))) trivial
  have hreachable : db.Reachable := hfetched.request (.register narrow "t" "") trivial
  refine ⟨hreachable, hreachable.orderly.not_torn (by decide +kernel), ?_⟩
  cases hupdate : update ⟨1⟩ ⟨.file "t", 2⟩ (PageCall.sequence []) db with
  | ok frame db' =>
    refine ⟨frame, db', rfl, torn_of_rows ?_⟩
    rw [← after_of_ok hupdate]
    decide +kernel
  | error e db' =>
    have hupdates : (outcome (update ⟨1⟩ ⟨.file "t", 2⟩ (PageCall.sequence []) db)).isOk = true := by
      decide +kernel
    rw [hupdate] at hupdates
    cases hupdates

end Database
end RowStore
