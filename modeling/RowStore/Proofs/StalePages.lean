import Mathlib.Control.Monad.Basic
import RowStore.Proofs.Demands
import RowStore.Proofs.Faults
import RowStore.Proofs.Registrations

/-!
# Cached pages of tables that are created again

A cached page keeps the schema of the file that it was loaded for. Pages, tuples and scans agree with
the registered file in every state of a run exactly if no table was created over cached pages that have
other columns.
-/
namespace RowStore
open Relation Database

/-- The fault is that two schemas disagree. -/
def Fault.IsMismatch : Fault → Prop
  | .error (.schemaMismatch _ _) => True
  | _ => False

theorem Fault.OfPages.not_mismatch {e : Fault} (h : e.OfPages) : ¬ e.IsMismatch := by
  cases e with
  | violation breach => exact id
  | error cause => cases cause <;> first | exact id | exact h.elim

namespace Database
variable {α : Type}

/-- The operation does not fail because schemas disagree. -/
def Agreeable (operation : Db α) : Prop :=
  ∀ db e db', operation db = .error e db' → ¬ e.IsMismatch

theorem agreeable_fetch (id : PageId) : Agreeable (fetch id) :=
  (raises_fetch id).mono fun _ => Fault.OfPages.not_mismatch

/-- Every cached page has the columns of the file that is registered for its table. -/
def Matched (db : Database) : Prop :=
  ∀ id page file, db.pool.page? id = some page → db.catalog.file id.table = .ok file →
    page.schema.Agrees file.schema

variable {db db' : Database}

theorem Matched.typed (h : db.Matched) :
    db.Typed fun table types => ∀ file, db.catalog.file table = .ok file → types = file.schema.types := by
  constructor
  case registered =>
    intro table file hfile other hother
    rw [hfile] at hother
    cases hother
    rfl
  case cached => exact fun id page hpage file hfile => h id page file hpage hfile

theorem Matched.acts (h : db.Matched) {accepts : Tuple → Prop}
    (hsteps : ReflTransGen (Act accepts) db db') : db'.Matched := by
  intro id page file hpage hfile
  rw [(sameSetup_of_acts hsteps).catalog] at hfile
  exact (h.typed.acts hsteps).cached id page hpage file hfile

theorem matched_registering_iff (h : db.Matched) (file : TableFile) (name key : String) :
    (db.registering file name key).Matched ↔
      ∀ n page, db.pool.page? ⟨file.id, n⟩ = some page → page.schema.Agrees file.schema := by
  constructor
  · intro hmatched n page hpage
    exact hmatched ⟨file.id, n⟩ page file hpage (Catalog.file_addTable_self _ _ _ _)
  · intro hagrees id page found hpage hfound
    rcases file_addTable hfound with ⟨hid, rfl⟩ | hold
    · obtain ⟨table, n⟩ := id
      cases hid
      exact hagrees n page hpage
    · exact h id page found hpage hold

theorem Matched.serving (h : db.Matched) (hhoused : db.Housed) {file : TableFile}
    (hfile : db.catalog.file file.id = .ok file) : Serving file db := by
  refine ⟨hhoused, hhoused.sized _ _ hfile, fun table other hother htable => ?_,
    fun id page hpage htable => ?_⟩
  · rw [htable, hfile] at hother
    cases hother
    rfl
  · exact h id page file hpage (by rw [htable, hfile])

section
variable {file : TableFile}

theorem Serving.not_mismatch_of_insertEdit (h : Serving file db) {n : PageNo} {t : Tuple}
    (hagrees : t.schema.Agrees file.schema) {txn : TransactionId} {e : Fault}
    (hupdate : update txn ⟨file.id, n⟩ (insertEdit t) db = .error e db') : ¬ e.IsMismatch := by
  cases hfetch : Database.fetch ⟨file.id, n⟩ db with
  | error e' middle =>
    rw [update_of_fetch_error hfetch] at hupdate
    cases hupdate
    exact agreeable_fetch _ _ _ _ hfetch
  | ok frame middle =>
    obtain ⟨_, _, hpage, _⟩ := h.fetched hfetch
    have hsame : t.schema.Agrees frame.page.schema := hagrees.trans hpage.symm
    cases hedit : insertEdit t frame.page with
    | ok _ page =>
      rw [update_of_edit_ok hfetch hedit] at hupdate
      cases hupdate
    | error cause page =>
      rw [update_of_edit_error hfetch hedit] at hupdate
      cases hupdate
      change EStateM.bind (Page.insert t) (fun _ => pure ()) frame.page = _ at hedit
      rw [EStateM.bind, Page.insert, if_pos hsame] at hedit
      cases hfree : frame.page.freeSlot? with
      | some slot =>
        rw [hfree] at hedit
        cases hedit
      | none =>
        rw [hfree] at hedit
        cases hedit
        exact id

theorem Serving.not_mismatch_of_insertAmong {txn : TransactionId} {t : Tuple}
    (hagrees : t.schema.Agrees file.schema) {e : Fault} (left page : Nat) {db : Database}
    (h : Serving file db) (hinsert : insertAmong file txn t page left db = .error e db') :
    ¬ e.IsMismatch := by
  induction left generalizing page db with
  | zero =>
    rw [insertAmong_zero] at hinsert
    have happended : Serving file
        (db.storing file (UInt32.ofNat page) (List.replicate file.pageSize 0)) :=
      ⟨h.housed.storing h.size _ List.length_replicate, h.size, h.typed.registered, h.typed.cached⟩
    exact happended.not_mismatch_of_insertEdit hagrees (updateList_eq_error hinsert)
  | succ left ih =>
    rw [insertAmong_succ] at hinsert
    cases hfetch : Database.fetch ⟨file.id, UInt32.ofNat page⟩ db with
    | error e' middle =>
      rw [hfetch] at hinsert
      cases hinsert
      exact agreeable_fetch _ _ _ _ hfetch
    | ok frame middle =>
      obtain ⟨hserving, _⟩ := h.fetched hfetch
      rw [hfetch] at hinsert
      dsimp only at hinsert
      split at hinsert
      · exact hserving.not_mismatch_of_insertEdit hagrees (updateList_eq_error hinsert)
      · exact ih (page + 1) hserving hinsert

theorem Serving.not_mismatch_of_insertTuple (h : Serving file db) {table : TableId}
    (hfile : db.catalog.file table = .ok file) {txn : TransactionId} {t : Tuple}
    (hagrees : t.schema.Agrees file.schema) {e : Fault}
    (hinsert : insertTuple txn table t db = .error e db') : ¬ e.IsMismatch := by
  rw [insertTuple_eq txn t hfile, if_pos hagrees] at hinsert
  exact h.not_mismatch_of_insertAmong hagrees _ _ (unanswered_eq_error hinsert)

end
end Database

namespace Source
variable {σ α : Type}

/-- The answer, the state that is left and the fault are as they should be. -/
def Meets (A : α → Prop) (I : σ → Database → Prop) (Q : Fault → Prop) :
    EStateM.Result Fault (σ × Database) α → Prop
  | .ok a (s, db) => A a ∧ I s db
  | .error e (s, db) => Q e ∧ I s db

theorem respond_meets {source : Source σ} {A : Option Tuple → Prop} {I : σ → Database → Prop}
    {Q : Fault → Prop} (hclosed : Q (.error .operatorNotOpen))
    (hpull : ∀ s db, I s db → Meets A I Q (source.pull (s, db)))
    (hrestart : ∀ s db, I s db → Meets (fun _ => True) I Q (source.restart (s, db)))
    (demand : Demand) {look : Lookahead σ} {db : Database} (h : I look.inner db) :
    Meets (fun _ => True) (fun look => I look.inner) Q (source.respond demand (look, db)) := by
  obtain ⟨s, isOpen, peeked⟩ := look
  have hpulled := hpull s db h
  have hrestarted := hrestart s db h
  cases isOpen with
  | false =>
    rw [respond_of_closed]
    exact ⟨hclosed, h⟩
  | true =>
    rcases demand.rewind_or_pulls with rfl | hpulls
    · cases hrun : source.restart (s, db) with
      | ok _ x =>
        rw [hrun] at hrestarted
        rw [respond_of_restart peeked hrun]
        exact ⟨trivial, hrestarted.2⟩
      | error e x =>
        rw [hrun] at hrestarted
        rw [respond_of_restart_error peeked hrun]
        exact hrestarted
    · cases peeked with
      | some t =>
        rw [respond_of_peeked hpulls]
        exact ⟨trivial, h⟩
      | none =>
        cases hrun : source.pull (s, db) with
        | ok t x =>
          rw [hrun] at hpulled
          rw [respond_of_pull hpulls hrun]
          exact ⟨trivial, hpulled.2⟩
        | error e x =>
          rw [hrun] at hpulled
          rw [respond_of_pull_error hpulls hrun]
          exact hpulled

/-- The answers and the faults of an operator that is asked on after faults, while the database is
used. -/
def outcomes (source : Source σ) : List (Event Demand) → Lookahead σ × Database → List (Except Fault Answer)
  | [], _ => []
  | .use use :: events, (look, db) => source.outcomes events (look, use.leaves db)
  | .ask demand :: events, x =>
    match source.respond demand x with
    | .ok answer x => .ok answer :: source.outcomes events x
    | .error e x => .error e :: source.outcomes events x

theorem outcomes_faults {source : Source σ} {A : Option Tuple → Prop} {I : σ → Database → Prop}
    {Q : Fault → Prop} (hclosed : Q (.error .operatorNotOpen))
    (hpull : ∀ s db, I s db → Meets A I Q (source.pull (s, db)))
    (hrestart : ∀ s db, I s db → Meets (fun _ => True) I Q (source.restart (s, db)))
    {events : List (Event Demand)}
    (huse : ∀ use, .use use ∈ events → ∀ s db, I s db → I s (use.leaves db)) {look : Lookahead σ}
    {db : Database} (h : I look.inner db) {e : Fault}
    (he : .error e ∈ source.outcomes events (look, db)) : Q e := by
  induction events generalizing look db with
  | nil => cases he
  | cons event events ih =>
    have hrest := @ih fun use hmem => huse use (List.mem_cons_of_mem _ hmem)
    cases event with
    | use use => exact hrest (huse use List.mem_cons_self _ _ h) he
    | ask demand =>
      have hmeets := respond_meets hclosed hpull hrestart demand h
      rw [outcomes] at he
      cases hrun : source.respond demand (look, db) with
      | ok answer x =>
        rw [hrun] at he hmeets
        rcases List.mem_cons.mp he with heq | hlater
        · cases heq
        · exact hrest hmeets.2 hlater
      | error e' x =>
        rw [hrun] at he hmeets
        rcases List.mem_cons.mp he with heq | hlater
        · cases heq
          exact hmeets.1
        · exact hrest hmeets.2 hlater

end Source

/-- The cursor is one of the file, and what it has buffered has the file's columns. -/
structure Cursor.Fits (file : TableFile) (cursor : Cursor) : Prop where
  home : cursor.file = file
  buffered : ∀ t ∈ cursor.buffered, t.schema.Agrees file.schema

namespace Cursor
variable {file : TableFile}

theorem advance_fits (left page : Nat) {db : Database} (h : Serving file db) :
    Source.Meets (fun answer => ∀ t, answer = some t → t.schema.Agrees file.schema)
      (fun cursor db => cursor.Fits file ∧ Serving file db) (fun e => ¬ e.IsMismatch)
      (advance file page left db) := by
  induction left generalizing page db with
  | zero =>
    refine ⟨fun t ht => ?_, ⟨rfl, List.forall_mem_nil _⟩, h⟩
    cases ht
  | succ left ih =>
    rw [advance]
    cases hfetch : fetch ⟨file.id, UInt32.ofNat page⟩ db with
    | error e middle =>
      have hserving := h.fetch ⟨file.id, UInt32.ofNat page⟩
      rw [after_of_error hfetch] at hserving
      exact ⟨agreeable_fetch _ _ _ _ hfetch, ⟨rfl, List.forall_mem_nil _⟩, hserving⟩
    | ok frame middle =>
      obtain ⟨hserving, hshaped, hagrees, _⟩ := h.fetched hfetch
      have htuples : ∀ t ∈ frame.page.tuples, t.schema.Agrees file.schema := by
        intro t ht
        exact (hshaped.shape (Page.mem_tuples.mp ht)).1.trans hagrees
      dsimp only
      cases htaken : frame.page.tuples with
      | nil => exact ih (page + 1) hserving
      | cons t ts =>
        rw [htaken] at htuples
        refine ⟨fun u hu => ?_, ⟨rfl, fun u hu => htuples u (List.mem_cons_of_mem _ hu)⟩, hserving⟩
        cases hu
        exact htuples t List.mem_cons_self

theorem next_fits {cursor : Cursor} (hcursor : cursor.Fits file) {db : Database} (h : Serving file db) :
    Source.Meets (fun answer => ∀ t, answer = some t → t.schema.Agrees file.schema)
      (fun cursor db => cursor.Fits file ∧ Serving file db) (fun e => ¬ e.IsMismatch)
      (next (cursor, db)) := by
  obtain ⟨home, page, left, buffered⟩ := cursor
  cases hcursor.home
  cases buffered with
  | nil => exact advance_fits left page h
  | cons t ts =>
    refine ⟨fun u hu => ?_, ⟨rfl, fun u hu => hcursor.buffered u (List.mem_cons_of_mem _ hu)⟩, h⟩
    cases hu
    exact hcursor.buffered t List.mem_cons_self

end Cursor

namespace Source
variable {file : TableFile}

/-- What a scan of the file has read fits the file. -/
def ScanFits (file : TableFile) (cursor : Option Cursor) (db : Database) : Prop :=
  (∀ c, cursor = some c → c.Fits file) ∧ Serving file db

theorem scanFits_some {cursor : Cursor} {db : Database} (hcursor : cursor.Fits file)
    (h : Serving file db) : ScanFits file (some cursor) db := by
  refine ⟨fun c hc => ?_, h⟩
  cases hc
  exact hcursor

theorem pullScan_fits (qualifier : String) (cursor : Option Cursor) (db : Database)
    (h : ScanFits file cursor db) :
    Meets (fun _ => True) (ScanFits file) (fun e => ¬ e.IsMismatch)
      ((scan file (file.schema.qualify qualifier)).pull (cursor, db)) := by
  change Meets _ _ _ (pullScan (file.schema.qualify qualifier) (cursor, db))
  cases cursor with
  | none => exact ⟨trivial, h⟩
  | some cursor =>
    have hnext := Cursor.next_fits (h.1 cursor rfl) h.2
    rw [pullScan]
    cases hrun : Cursor.next (cursor, db) with
    | error e s =>
      rw [hrun] at hnext
      exact ⟨hnext.1, scanFits_some hnext.2.1 hnext.2.2⟩
    | ok answer s =>
      rw [hrun] at hnext
      have hfits : ScanFits file (some s.1) s.2 := scanFits_some hnext.2.1 hnext.2.2
      cases answer with
      | none => exact ⟨trivial, hfits⟩
      | some t =>
        have hagrees : (file.schema.qualify qualifier).Agrees t.schema := by
          rw [Schema.Agrees, Schema.types_qualify]
          exact (hnext.1 t rfl).symm
        simp only [Tuple.resetSchema, hagrees, if_true]
        exact ⟨trivial, hfits⟩

theorem restartScan_fits (qualifier : String) (cursor : Option Cursor) (db : Database)
    (h : ScanFits file cursor db) :
    Meets (fun _ => True) (ScanFits file) (fun e => ¬ e.IsMismatch)
      ((scan file (file.schema.qualify qualifier)).restart (cursor, db)) := by
  refine ⟨trivial, fun c hc => ?_, h.2⟩
  obtain ⟨old, hold, rfl⟩ := Option.map_eq_some_iff.mp hc
  exact ⟨(h.1 old hold).home, List.forall_mem_nil _⟩

end Source

/-- The table is not created over cached pages of other columns. -/
def Use.LeavesNoStale : Use → Database → Prop
  | .create path name schema key, db => ∀ table db', createTable path name schema key db = .ok table db' →
      ∀ n page, db.pool.page? ⟨table, n⟩ = some page → page.schema.Agrees schema
  | .call _, _ => True

theorem Use.leavesNoStale_create {path name key place : String} {schema : Schema} {db : Database}
    (hplace : Path.resolve? path = some place)
    (h : ∀ entry ∈ db.pool.frames.entries, entry.1.table = .file place →
      entry.2.page.schema.Agrees schema) : (Use.create path name schema key).LeavesNoStale db := by
  intro table db' hcreate n page hpage
  rcases createTable_cases path name schema key db with ⟨file, hfile, _, _, hok⟩ | ⟨e, herror⟩
  · rw [hok] at hcreate
    cases hcreate
    rw [hplace] at hfile
    cases hfile
    obtain ⟨frame, hframe, rfl⟩ := Option.map_eq_some_iff.mp hpage
    exact h _ (Assoc.mem_entries_of_get? hframe) rfl
  · rw [herror] at hcreate
    cases hcreate

namespace Database

/-- The registered tables can be used under their registered schemas. -/
structure Serves (db : Database) : Prop where
  /-- A page that is fetched has the columns and the size that the registered file has now. -/
  fetches : ∀ id file frame db', db.catalog.file id.table = .ok file → fetch id db = .ok frame db' →
    frame.page.schema.Agrees file.schema ∧ frame.page.size = file.pageSize
  /-- No page of a table refuses a tuple of the registered schema for its schema. -/
  inserts : ∀ txn table file t e db', db.catalog.file table = .ok file → t.schema.Agrees file.schema →
    insertTuple txn table t db = .error e db' → ¬ e.IsMismatch
  /-- No scan of the registered file fails on a schema, whatever it is asked while tuples are edited and
  other tables are created. -/
  scans : ∀ table file qualifier look opened, db.catalog.file table = .ok file →
    (Source.scan file (file.schema.qualify qualifier)).open (look, db) = .ok () opened →
      ∀ events : List (Event Demand),
        (∀ use, .use use ∈ events → use.Edits Tuple.Built ∧ use.Keeps (ColumnsOf file)) →
          ∀ e, .error e ∈ (Source.scan file (file.schema.qualify qualifier)).outcomes events opened →
            ¬ e.IsMismatch

theorem Matched.serves {db : Database} (h : db.Matched) (hhoused : db.Housed) : db.Serves := by
  constructor
  case fetches =>
    intro id file frame db' hfile hfetch
    have hid := hhoused.named _ _ hfile
    have hserving := h.serving hhoused (hhoused.registered hfile)
    obtain ⟨table, n⟩ := id
    cases hid
    exact (hserving.fetched hfetch).2.2
  case inserts =>
    intro txn table file t e db' hfile hagrees hinsert
    exact (h.serving hhoused (hhoused.registered hfile)).not_mismatch_of_insertTuple hfile hagrees hinsert
  case scans =>
    intro table file qualifier look opened hfile hopen events huses e he
    have hserving := h.serving hhoused (hhoused.registered hfile)
    cases hopen
    refine Source.outcomes_faults (I := Source.ScanFits file) (fun hmismatch => hmismatch)
      (Source.pullScan_fits qualifier) (Source.restartScan_fits qualifier) ?_ ?_ he
    · intro use hmem cursor db hfits
      obtain ⟨hedits, hkeeps⟩ := huses use hmem
      exact ⟨hfits.1, hfits.2.leaves (fun _ => Tuple.Built.complete) hedits hkeeps⟩
    · exact Source.scanFits_some ⟨rfl, List.forall_mem_nil _⟩ hserving

/-- A cached page is what a fetch answers, so it must have the columns of the registered file. -/
theorem Serves.matched {db : Database} (h : db.Serves) : db.Matched := by
  intro id page file hpage hfile
  obtain ⟨frame, hframe, rfl⟩ := Option.map_eq_some_iff.mp hpage
  exact (h.fetches id file frame db hfile (fetch_of_cached hframe)).1

theorem Housed.serves_leaves_iff {db : Database} (h : db.Housed) {use : Use}
    (huse : use.Edits Tuple.Built) (hserves : db.Serves) :
    (use.leaves db).Serves ↔ use.LeavesNoStale db := by
  have hhoused := h.leaves (fun _ => Tuple.Built.complete) huse
  have hmatched := hserves.matched
  cases use with
  | call c =>
    have hacts := Call.leaves_acts (fun _ => Tuple.Built.complete) huse h
    exact iff_of_true ((hmatched.acts hacts).serves hhoused) trivial
  | create path name schema key =>
    rcases leaves_create_cases path name schema key db with
      ⟨file, _, hschema, _, hcreate, hleaves⟩ | ⟨⟨e, hcreate⟩, hleaves⟩
    · have hiff : (db.registering file name key).Serves ↔ (db.registering file name key).Matched :=
        ⟨Serves.matched, fun hnew => hnew.serves (hleaves ▸ hhoused)⟩
      rw [hleaves, hiff, matched_registering_iff hmatched, hschema]
      constructor
      · intro hagrees table db' hok n page hpage
        rw [hcreate] at hok
        cases hok
        exact hagrees n page hpage
      · intro hstale n page hpage
        exact hstale file.id _ hcreate n page hpage
    · rw [hleaves]
      refine iff_of_true hserves fun table db' hok => ?_
      rw [hcreate] at hok
      cases hok

/-- In a run over any files, all states serve the registered tables exactly if no table is created over
cached pages of other columns. -/
theorem serves_throughout_iff {uses : List Use} (huses : ∀ use ∈ uses, use.Edits Tuple.Built)
    (config : Config) (volume : Volume) :
    Throughout Serves uses (onVolume config volume) ↔
      EachUse Use.LeavesNoStale uses (onVolume config volume) := by
  have hstart : (onVolume config volume).Serves :=
    Matched.serves (by rintro id page file ⟨⟩) (housed_onVolume config volume)
  apply throughout_iff _ _ (housed_onVolume config volume) hstart
  · intro use hmem db h
    exact h.leaves (fun _ => Tuple.Built.complete) (huses use hmem)
  · intro use hmem db h hserves
    exact h.serves_leaves_iff (huses use hmem) hserves

/-- A table gets another name for its column while its page is cached, and another table comes in. -/
theorem serves_throughout_iff_renamed :
    let schema : Schema := ⟨[{ type := .integer, name := some "a" }], List.cons_ne_nil _ _⟩
    let renamed : Schema := ⟨[{ type := .integer, name := some "b" }], List.cons_ne_nil _ _⟩
    let texts : Schema := ⟨[{ type := .char 4, name := some "c" }], List.cons_ne_nil _ _⟩
    let start := onVolume { pageSize := 32, poolPages := 4 } {}
    let uses : List Use := [.create "t" "t" schema "a",
      .call (.insert ⟨1⟩ (.file "t") ⟨schema, [.int 7], none⟩), .create "s" "s" texts "c",
      .create "t" "r" renamed "b"]
    (∀ use ∈ uses, use.Edits Tuple.Built) ∧ EachUse Use.LeavesNoStale uses start ∧
      Throughout Serves uses start := by
  intro schema renamed texts start uses
  have huses : ∀ use ∈ uses, use.Edits Tuple.Built := by
    have hbuilt : Tuple.ofFields schema [.int 7] = .ok ⟨schema, [.int 7], none⟩ := rfl
    simp only [uses, List.forall_mem_cons]
    exact ⟨trivial, .ofFields hbuilt, trivial, trivial, List.forall_mem_nil _⟩
  have hproper : EachUse Use.LeavesNoStale uses start := by
    refine ⟨Use.leavesNoStale_create rfl ?_, trivial, Use.leavesNoStale_create rfl ?_,
      Use.leavesNoStale_create rfl ?_, trivial⟩
    all_goals decide +kernel
  exact ⟨huses, hproper, (serves_throughout_iff huses _ _).mpr hproper⟩

/-- A table that is created again with another type of column still has its page of the old type, which
refuses the tuples of the new one. -/
theorem stale_page_of_recreated_table :
    let integers : Schema := ⟨[{ type := .integer, name := some "a" }], List.cons_ne_nil _ _⟩
    let texts : Schema := ⟨[{ type := .char 4, name := some "b" }], List.cons_ne_nil _ _⟩
    let page : PageId := ⟨.file "t.dat", 0⟩
    let start := onVolume { pageSize := 32, poolPages := 4 } {}
    let uses : List Use := [.create "t.dat" "t" integers "a",
      .call (.insert ⟨1⟩ page.table ⟨integers, [.int 7], none⟩),
      .call (.delete ⟨1⟩ ⟨integers, [.int 7], some ⟨page, 0⟩⟩), .call (.complete ⟨1⟩ true),
      .create "t.dat" "t" texts "b"]
    let db := play uses start
    (∃ file frame, db.catalog.file page.table = .ok file ∧ file.schema = texts ∧
      fetch page db = .ok frame db ∧ frame.page.schema = integers) ∧
      (∃ e db', insertTuple ⟨2⟩ page.table ⟨texts, [.str "x"], none⟩ db = .error e db' ∧ e.IsMismatch) ∧
        ¬ Throughout Serves uses start := by
  intro integers texts page start uses db
  have hfetch : ∃ file frame, db.catalog.file page.table = .ok file ∧ file.schema = texts ∧
      fetch page db = .ok frame db ∧ frame.page.schema = integers := by
    have hcached : ((db.pool.frames.get? page).map fun frame => frame.page.schema) = some integers := by
      decide +kernel
    have hregistered : ((db.catalog.tables.get? page.table).map fun entry => entry.file.schema) =
        some texts := by decide +kernel
    obtain ⟨frame, hframe, hold⟩ := Option.map_eq_some_iff.mp hcached
    obtain ⟨entry, hentry, hschema⟩ := Option.map_eq_some_iff.mp hregistered
    refine ⟨entry.file, frame, ?_, hschema, fetch_of_cached hframe, hold⟩
    rw [Catalog.file, Catalog.entry, hentry]
    rfl
  have hinsert : ∃ e db', insertTuple ⟨2⟩ page.table ⟨texts, [.str "x"], none⟩ db = .error e db' ∧
      e.IsMismatch := by
    have hrefused : outcome (insertTuple ⟨2⟩ page.table ⟨texts, [.str "x"], none⟩ db) =
        .error (.error (.schemaMismatch "INTEGER(a)" "CHAR(4)(b)")) := by decide +kernel
    obtain ⟨db', hrun⟩ := exists_error_of_outcome hrefused
    exact ⟨_, db', hrun, trivial⟩
  refine ⟨hfetch, hinsert, fun hserves => ?_⟩
  obtain ⟨file, frame, hfile, hschema, hframe, hold⟩ := hfetch
  have hagrees := (hserves.last.fetches page file frame db hfile hframe).1
  rw [hold, hschema] at hagrees
  exact absurd hagrees (by decide)

end Database
end RowStore
