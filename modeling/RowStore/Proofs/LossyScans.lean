import RowStore.Proofs.StalePages
import RowStore.Proofs.SteadyTables

/-!
# Scans that go on after errors

A scan is watched while it is asked for tuples and the database is used in ways that leave the table as it
is. A page that cannot be fetched is lost: the cursor stands behind it already when the error comes out. So
at the end the scan has returned the tuples of the other pages, and it has returned all tuples exactly if
the pages that it lost hold none.
-/
namespace RowStore
open Relation Database

namespace Database
variable {db db' : Database} {file : TableFile}

/-- The entries on the pages from number `first` up to number `last`. -/
def entriesFrom (db : Database) (file : TableFile) (first last : Nat) :
    List (Option RecordId × List Field) :=
  (List.range' first (last - first)).flatMap fun page => db.entriesAt file (UInt32.ofNat page)

/-- The entries on the first pages, without the lost ones. -/
def entriesBut (db : Database) (file : TableFile) (lost : List Nat) (last : Nat) :
    List (Option RecordId × List Field) :=
  ((List.range last).filter (· ∉ lost)).flatMap fun page => db.entriesAt file (UInt32.ofNat page)

@[simp] theorem entriesFrom_self (db : Database) (file : TableFile) (page : Nat) :
    db.entriesFrom file page page = [] := by
  simp [entriesFrom]

theorem entriesFrom_of_lt {first last : Nat} (h : first < last) :
    db.entriesFrom file first last =
      db.entriesAt file (UInt32.ofNat first) ++ db.entriesFrom file (first + 1) last := by
  have hcount : last - first = (last - (first + 1)) + 1 := by omega
  rw [entriesFrom, hcount, List.range'_succ, List.flatMap_cons, entriesFrom]

theorem entriesFrom_congr (h : ∀ n, db'.entriesAt file n = db.entriesAt file n) (first last : Nat) :
    db'.entriesFrom file first last = db.entriesFrom file first last := by
  simp only [entriesFrom, h]

theorem entriesBut_congr (h : ∀ n, db'.entriesAt file n = db.entriesAt file n) (lost : List Nat)
    (last : Nat) : db'.entriesBut file lost last = db.entriesBut file lost last := by
  simp only [entriesBut, h]

theorem entriesBut_append {lost : List Nat} {first last : Nat} (hlost : ∀ page ∈ lost, page < first)
    (hle : first ≤ last) :
    db.entriesBut file lost last = db.entriesBut file lost first ++ db.entriesFrom file first last := by
  have hrange : List.range last = List.range first ++ List.range' first (last - first) := by
    have happend : List.range' 0 first ++ List.range' (0 + first) (last - first) =
        List.range' 0 (first + (last - first)) := List.range'_append_1
    rw [Nat.zero_add, Nat.add_sub_cancel' hle] at happend
    rw [List.range_eq_range', List.range_eq_range', happend]
  have hkept : (List.range' first (last - first)).filter (· ∉ lost) = List.range' first (last - first) := by
    apply List.filter_eq_self.mpr
    intro page hpage
    have hfirst := (List.mem_range'_1.mp hpage).1
    exact decide_eq_true fun hmem => Nat.not_lt_of_le hfirst (hlost page hmem)
  rw [entriesBut, hrange, List.filter_append, hkept, List.flatMap_append]
  rfl

theorem entriesBut_concat (lost : List Nat) (page : Nat) :
    db.entriesBut file (lost ++ [page]) (page + 1) = db.entriesBut file lost page := by
  have hkept : (List.range page).filter (· ∉ lost ++ [page]) = (List.range page).filter (· ∉ lost) := by
    apply List.filter_congr
    intro other hother
    have hne : other ≠ page := Nat.ne_of_lt (List.mem_range.mp hother)
    simp [hne]
  have hlast : [page].filter (· ∉ lost ++ [page]) = [] := by simp
  rw [entriesBut, List.range_succ, List.filter_append, hkept, hlast, List.append_nil, entriesBut]

theorem record_of_mem_entriesAt {n : PageNo} {entry : Option RecordId × List Field}
    (h : entry ∈ db.entriesAt file n) : ∃ slot, entry.1 = some ⟨⟨file.id, n⟩, slot⟩ := by
  obtain ⟨⟨row, slot⟩, _, hentry⟩ := List.mem_filterMap.mp h
  obtain ⟨fields, _, rfl⟩ := Option.map_eq_some_iff.mp hentry
  exact ⟨UInt16.ofNat slot, rfl⟩

theorem mem_entriesBut_iff {lost : List Nat} {pages : Nat} (hpages : pages ≤ UInt32.size)
    (hlost : ∀ page ∈ lost, page < pages) :
    (∀ page < pages, ∀ entry ∈ db.entriesAt file (UInt32.ofNat page),
      entry ∈ db.entriesBut file lost pages) ↔
        ∀ page ∈ lost, db.entriesAt file (UInt32.ofNat page) = [] := by
  constructor
  · intro hall page hpage
    apply List.eq_nil_iff_forall_not_mem.mpr
    intro entry hentry
    obtain ⟨other, hother, hfound⟩ := List.mem_flatMap.mp (hall page (hlost page hpage) entry hentry)
    obtain ⟨hlt, hkept⟩ := List.mem_filter.mp hother
    obtain ⟨slot, hrecord⟩ := record_of_mem_entriesAt hentry
    obtain ⟨slot', hrecord'⟩ := record_of_mem_entriesAt hfound
    rw [hrecord, Option.some.injEq, RecordId.mk.injEq, PageId.mk.injEq] at hrecord'
    have hnumber := congrArg UInt32.toNat hrecord'.1.2
    have hother := List.mem_range.mp hlt
    have hlost := hlost page hpage
    rw [UInt32.toNat_ofNat_of_lt' (by omega), UInt32.toNat_ofNat_of_lt' (by omega)] at hnumber
    rw [← hnumber] at hkept
    exact of_decide_eq_true hkept hpage
  · intro hempty page hpage entry hentry
    refine List.mem_flatMap.mpr ⟨page, List.mem_filter.mpr ⟨List.mem_range.mpr hpage, ?_⟩, hentry⟩
    refine decide_eq_true fun hmem => ?_
    rw [hempty page hmem] at hentry
    cases hentry

theorem Steady.fetch (h : Steady file db) (id : PageId) :
    Steady file (after (fetch id) db) ∧
      ∀ n, (after (fetch id) db).entriesAt file n = db.entriesAt file n := by
  obtain ⟨hsteady, hrows⟩ := h.turnovers (fetch_turnovers h.serving.housed id).1
  exact ⟨hsteady, fun n => by rw [entriesAt, hrows, entriesAt]⟩

theorem Steady.entries_fetched (h : Steady file db) {n : PageNo} {frame : Frame}
    (hfetch : Database.fetch ⟨file.id, n⟩ db = .ok frame db') :
    frame.page.tuples.map Tuple.entry = db.entriesAt file n := by
  obtain ⟨hpages, hhoused, hcached⟩ := h.serving.housed.fetched hfetch
  have hlodged := hhoused.cached _ _ hcached
  rw [hlodged.shaped.entries, hlodged.identified, ← rowsAt_of_cached hcached,
    (h.turnovers hpages).2, entriesAt]

end Database

namespace Cursor

/-- The cursor has gone on over a table that readers see as before. -/
structure Moved (file : TableFile) (db : Database) (cursor cursor' : Cursor) (db' : Database) : Prop where
  steady : Steady file db'
  entries : ∀ n, db'.entriesAt file n = db.entriesAt file n
  fits : cursor'.Fits file
  pages : cursor'.nextPage + cursor'.pagesLeft = cursor.nextPage + cursor.pagesLeft
  onward : cursor.nextPage ≤ cursor'.nextPage

/-- The cursor has given tuples out, and those of the pages that it came over are buffered behind them. -/
structure Gave (file : TableFile) (db : Database) (cursor : Cursor) (given : List Tuple) (cursor' : Cursor)
    (db' : Database) : Prop where
  moved : cursor.Moved file db cursor' db'
  entries : (given ++ cursor'.buffered).map Tuple.entry =
    cursor.buffered.map Tuple.entry ++ db.entriesFrom file cursor.nextPage cursor'.nextPage

/-- The cursor has failed at a page, and stands behind it. -/
structure Lost (file : TableFile) (db : Database) (cursor cursor' : Cursor) (db' : Database) : Prop where
  moved : cursor.Moved file db cursor' db'
  before : cursor.buffered = []
  after : cursor'.buffered = []
  page : ∃ page, cursor'.nextPage = page + 1 ∧ cursor.nextPage ≤ page ∧
    db.entriesFrom file cursor.nextPage page = []

/-- No page is left, and no tuple. -/
def Finished (cursor : Cursor) : Prop := cursor.pagesLeft = 0 ∧ cursor.buffered = []

/-- What a step of the cursor may come to. -/
def Steps (file : TableFile) (db : Database) (cursor : Cursor) :
    EStateM.Result Fault (Cursor × Database) (Option Tuple) → Prop
  | .ok answer (cursor', db') =>
    cursor.Gave file db answer.toList cursor' db' ∧ (answer = none → cursor'.Finished)
  | .error _ (cursor', db') => cursor.Lost file db cursor' db'

variable {file : TableFile}

theorem Moved.refl {cursor : Cursor} (hcursor : cursor.Fits file) {db : Database} (h : Steady file db) :
    cursor.Moved file db cursor db :=
  ⟨h, fun _ => rfl, hcursor, rfl, Nat.le_refl _⟩

section
variable {db middle : Database} {page left : Nat}

theorem Moved.passed (hentries : ∀ n, middle.entriesAt file n = db.entriesAt file n) {cursor : Cursor}
    {db' : Database} (h : Moved file middle ⟨file, page + 1, left, []⟩ cursor db') :
    Moved file db ⟨file, page, left + 1, []⟩ cursor db' := by
  refine ⟨h.steady, fun n => (h.entries n).trans (hentries n), h.fits, ?_, Nat.le_of_succ_le h.onward⟩
  rw [h.pages]
  exact Nat.succ_add_eq_add_succ page left

theorem Steps.passed (hentries : ∀ n, middle.entriesAt file n = db.entriesAt file n)
    (hempty : db.entriesAt file (UInt32.ofNat page) = [])
    {result : EStateM.Result Fault (Cursor × Database) (Option Tuple)}
    (h : Steps file middle ⟨file, page + 1, left, []⟩ result) :
    Steps file db ⟨file, page, left + 1, []⟩ result := by
  have hpassed (last : Nat) (hlt : page < last) :
      middle.entriesFrom file (page + 1) last = db.entriesFrom file page last := by
    rw [entriesFrom_of_lt hlt, hempty, List.nil_append, entriesFrom_congr hentries]
  cases result with
  | ok answer s =>
    obtain ⟨⟨hmoved, hgiven⟩, hend⟩ := h
    refine ⟨⟨hmoved.passed hentries, ?_⟩, hend⟩
    rw [hgiven]
    exact hpassed _ hmoved.onward
  | error e s =>
    obtain ⟨hmoved, hbefore, hafter, lost, hlost, hle, hnone⟩ := h
    refine ⟨hmoved.passed hentries, rfl, hafter, lost, hlost, Nat.le_of_succ_le hle, ?_⟩
    rw [← hpassed lost hle]
    exact hnone

end

theorem advance_steps (left page : Nat) {db : Database} (h : Steady file db) :
    Steps file db ⟨file, page, left, []⟩ (advance file page left db) := by
  induction left generalizing page db with
  | zero =>
    have hstart : Cursor.Fits file ⟨file, page, 0, []⟩ := ⟨rfl, List.forall_mem_nil _⟩
    refine ⟨⟨Moved.refl hstart h, ?_⟩, fun _ => ⟨rfl, rfl⟩⟩
    simp
  | succ left ih =>
    have hfits := advance_fits (left + 1) page h.serving
    obtain ⟨hsteady, hentries⟩ := h.fetch ⟨file.id, UInt32.ofNat page⟩
    rw [advance] at hfits ⊢
    cases hfetch : fetch ⟨file.id, UInt32.ofNat page⟩ db with
    | error e middle =>
      rw [hfetch] at hfits
      rw [after_of_error hfetch] at hsteady hentries
      refine ⟨⟨hsteady, hentries, hfits.2.1, ?_, Nat.le_succ page⟩, rfl, rfl, page, rfl, Nat.le_refl _, ?_⟩
      · exact Nat.succ_add_eq_add_succ page left
      · exact entriesFrom_self db file page
    | ok frame middle =>
      have hshown := h.entries_fetched hfetch
      rw [hfetch] at hfits
      rw [after_of_ok hfetch] at hsteady hentries
      dsimp only at hfits ⊢
      cases htuples : frame.page.tuples with
      | cons t ts =>
        rw [htuples] at hshown hfits
        refine ⟨⟨⟨hsteady, hentries, hfits.2.1, ?_, Nat.le_succ page⟩, ?_⟩, by rintro ⟨⟩⟩
        · exact Nat.succ_add_eq_add_succ page left
        · rw [entriesFrom_of_lt (Nat.lt_succ_self page), ← hshown]
          simp
      | nil =>
        rw [htuples] at hshown
        exact (ih (page + 1) hsteady).passed hentries hshown.symm

theorem next_steps {cursor : Cursor} (hcursor : cursor.Fits file) {db : Database} (h : Steady file db) :
    Steps file db cursor (next (cursor, db)) := by
  have hfits := next_fits hcursor h.serving
  obtain ⟨home, page, left, buffered⟩ := cursor
  cases hcursor.home
  cases buffered with
  | nil => exact advance_steps left page h
  | cons t ts =>
    refine ⟨⟨⟨h, fun _ => rfl, hfits.2.1, rfl, Nat.le_refl _⟩, ?_⟩, by rintro ⟨⟩⟩
    simp

end Cursor

namespace Answer

/-- The tuples that come with the answer. -/
def tuples : Answer → List Tuple
  | .row t => t.toList
  | .more _ | .done => []

/-- The answer says that no tuple is left. -/
def Ends (answer : Answer) : Prop := answer = .row none ∨ answer = .more false

end Answer

namespace Demand
variable {demand : Demand}

theorem answerWith_ne_done (hpulls : demand.pulls = true) (t : Option Tuple) :
    demand.answerWith t ≠ .done := by
  cases demand with
  | next | hasNext => rintro ⟨⟩
  | rewind => cases hpulls

theorem tuples_answerWith (hpulls : demand.pulls = true) (t : Option Tuple) :
    (demand.answerWith t).tuples ++ (demand.keeps t).toList = t.toList := by
  cases demand with
  | next => exact List.append_nil _
  | hasNext => rfl
  | rewind => cases hpulls

theorem eq_none_of_ends (hpulls : demand.pulls = true) {t : Option Tuple}
    (h : (demand.answerWith t).Ends) : t = none := by
  cases t with
  | none => rfl
  | some t =>
    cases demand with
    | next | hasNext => rcases h with h | h <;> cases h
    | rewind => cases hpulls

end Demand

/-- What a user asks of a cursor. -/
inductive CursorDemand where
  | next
  | rewind

/-- Asks a cursor. -/
def Cursor.respond : CursorDemand → Run Cursor Answer
  | .next => Answer.row <$> Cursor.next
  | .rewind => (fun _ => Answer.done) <$> Cursor.rewind

/-- Something that is asked for the tuples of a table, and the number of the page that it visits next. -/
structure Scanner (σ δ : Type) where
  reply : δ → Run σ Answer
  nextPage : σ → Nat

def Cursor.scanner : Scanner Cursor CursorDemand := ⟨Cursor.respond, Cursor.nextPage⟩

/-- The operator that scans the file under the schema. -/
def Source.scanner (file : TableFile) (schema : Schema) : Scanner (Lookahead (Option Cursor)) Demand :=
  ⟨(scan file schema).respond, fun look => (look.inner.map Cursor.nextPage).getD 0⟩

/-- A scan with its database, and what has happened since it was opened or rewound. -/
structure Watch (σ : Type) where
  state : σ
  db : Database
  /-- The number of pages at that time. -/
  pages : Nat
  returned : List Tuple := []
  /-- The pages at which it failed. -/
  lost : List Nat := []

/-- A scan that has just been opened. -/
def Watch.opened {σ : Type} (file : TableFile) (state : σ) (db : Database) : Watch σ :=
  { state, db, pages := (file.numPages db.volume).toNat }

/-- Tuples of the table are left as they are. -/
def Event.Spares {δ : Type} (file : TableFile) (db : Database) : Event δ → Prop
  | .ask _ => True
  | .use other => other.Edits Tuple.Built ∧ other.Keeps (ColumnsOf file) ∧
      (other.leaves db).extent file.id = db.extent file.id ∧
        ∀ n, (other.leaves db).entriesAt file n = db.entriesAt file n

theorem Event.spares_discard {δ : Type} {file : TableFile} {db : Database} {id : PageId}
    (h : id.table ≠ file.id) : (Event.use (.call (.discard id)) : Event δ).Spares file db := by
  refine ⟨trivial, trivial, rfl, fun n => ?_⟩
  have hother : (⟨file.id, n⟩ : PageId) ≠ id := fun hid => h (congrArg PageId.table hid).symm
  have hpage : (db.without id).pool.page? ⟨file.id, n⟩ = db.pool.page? ⟨file.id, n⟩ := by
    have hdrop := Pool.page?_drop db.pool id ⟨file.id, n⟩
    rwa [if_neg hother] at hdrop
  have hrows : (db.without id).rowsAt file n = db.rowsAt file n := rowsAt_congr hpage rfl
  change (db.without id).entriesAt file n = _
  rw [entriesAt, hrows, entriesAt]

namespace Scanner
variable {σ δ : Type}

/-- The scan after the event. A failure is put down to the page in front of the next one. -/
def play (scanner : Scanner σ δ) (file : TableFile) (watch : Watch σ) : Event δ → Watch σ
  | .use use => { watch with db := use.leaves watch.db }
  | .ask demand =>
    match scanner.reply demand (watch.state, watch.db) with
    | .ok answer (state, db) =>
      if answer = .done then .opened file state db
      else { watch with state, db, returned := watch.returned ++ answer.tuples }
    | .error _ (state, db) => { watch with state, db, lost := watch.lost ++ [scanner.nextPage state - 1] }

def playAll (scanner : Scanner σ δ) (file : TableFile) : List (Event δ) → Watch σ → Watch σ
  | [], watch => watch
  | event :: events, watch => scanner.playAll file events (scanner.play file watch event)

/-- All that happens around the scan leaves the table as it is. -/
def Undisturbed (scanner : Scanner σ δ) (file : TableFile) : List (Event δ) → Watch σ → Prop
  | [], _ => True
  | event :: events, watch =>
    event.Spares file watch.db ∧ scanner.Undisturbed file events (scanner.play file watch event)

/-- Where the scan says that no tuple is left, it has returned the entries of the pages that it did not
lose, and so all entries exactly if the lost pages have none. -/
def Settled (scanner : Scanner σ δ) (file : TableFile) (watch : Watch σ) : Prop :=
  ∀ demand answer x, scanner.reply demand (watch.state, watch.db) = .ok answer x → answer.Ends →
    watch.returned.map Tuple.entry = watch.db.entriesBut file watch.lost watch.pages ∧
      ((∀ page < watch.pages, ∀ entry ∈ watch.db.entriesAt file (UInt32.ofNat page),
        entry ∈ watch.returned.map Tuple.entry) ↔
          ∀ page ∈ watch.lost, watch.db.entriesAt file (UInt32.ofNat page) = [])

/-- How a scan that stands at the cursor and holds tuples back may reply. -/
def Replies (file : TableFile) (Stands : σ → Cursor → List Tuple → Prop) (db : Database) (cursor : Cursor)
    (held : List Tuple) : EStateM.Result Fault (σ × Database) Answer → Prop
  | .ok answer (state, db') =>
    (answer = .done ∧ db' = db ∧ Stands state (Cursor.start file db.volume) []) ∨
      (answer ≠ .done ∧ ∃ cursor' held' given, Stands state cursor' held' ∧
        cursor.Gave file db given cursor' db' ∧
          (answer.tuples ++ held').map Tuple.entry = (held ++ given).map Tuple.entry ∧
            (answer.Ends → cursor'.Finished ∧ held' = []))
  | .error _ (state, db') => held = [] ∧ ∃ cursor', Stands state cursor' [] ∧ cursor.Lost file db cursor' db'

/-- Each state stands for a cursor of the file and the tuples held back, and replies for it. -/
structure Lawful (scanner : Scanner σ δ) (file : TableFile) (Stands : σ → Cursor → List Tuple → Prop) :
    Prop where
  nextPage : ∀ state cursor held, Stands state cursor held → scanner.nextPage state = cursor.nextPage
  replies : ∀ demand state cursor held db, Stands state cursor held → cursor.Fits file → Steady file db →
    Replies file Stands db cursor held (scanner.reply demand (state, db))

end Scanner

/-- The tuples returned, held back and buffered are those of the pages before the next one that were not
lost. -/
structure Watch.Accounts {σ : Type} (file : TableFile) (Stands : σ → Cursor → List Tuple → Prop)
    (watch : Watch σ) (cursor : Cursor) (held : List Tuple) : Prop where
  steady : Steady file watch.db
  small : watch.pages ≤ UInt32.size
  stands : Stands watch.state cursor held
  fits : cursor.Fits file
  pages : cursor.nextPage + cursor.pagesLeft = watch.pages
  lost : ∀ page ∈ watch.lost, page < cursor.nextPage
  entries : (watch.returned ++ held ++ cursor.buffered).map Tuple.entry =
    watch.db.entriesBut file watch.lost cursor.nextPage

namespace Watch
variable {σ : Type} {file : TableFile} {Stands : σ → Cursor → List Tuple → Prop} {watch : Watch σ}
  {cursor : Cursor} {held : List Tuple}

theorem accounts_opened {state : σ} {db : Database} (h : Steady file db)
    (hstands : Stands state (Cursor.start file db.volume) []) :
    (opened file state db).Accounts file Stands (Cursor.start file db.volume) [] := by
  constructor
  case steady => exact h
  case small => exact Nat.le_of_lt (file.numPages db.volume).toNat_lt
  case stands => exact hstands
  case fits => exact ⟨rfl, List.forall_mem_nil _⟩
  case pages => exact Nat.zero_add _
  case lost => exact List.forall_mem_nil _
  case entries => rfl

theorem Accounts.gave (h : watch.Accounts file Stands cursor held) {given held' out : List Tuple}
    {cursor' : Cursor} {state : σ} {db : Database} (hgave : cursor.Gave file watch.db given cursor' db)
    (hout : (out ++ held').map Tuple.entry = (held ++ given).map Tuple.entry)
    (hstands : Stands state cursor' held') :
    Accounts file Stands { watch with state, db, returned := watch.returned ++ out } cursor' held' := by
  obtain ⟨hmoved, hgiven⟩ := hgave
  have hlost (page : Nat) (hpage : page ∈ watch.lost) : page < cursor'.nextPage :=
    Nat.lt_of_lt_of_le (h.lost page hpage) hmoved.onward
  refine ⟨hmoved.steady, h.small, hstands, hmoved.fits, hmoved.pages.trans h.pages, hlost, ?_⟩
  have hentries := h.entries
  dsimp only
  rw [entriesBut_congr hmoved.entries, entriesBut_append h.lost hmoved.onward, ← hentries]
  simp only [List.map_append, List.append_assoc] at hgiven hout ⊢
  rw [← hgiven, ← List.append_assoc (List.map _ out), hout, List.append_assoc]

theorem Accounts.failed (h : watch.Accounts file Stands cursor []) {cursor' : Cursor} {state : σ}
    {db : Database} (hfailed : cursor.Lost file watch.db cursor' db) (hstands : Stands state cursor' []) :
    Accounts file Stands { watch with state, db, lost := watch.lost ++ [cursor'.nextPage - 1] }
      cursor' [] := by
  obtain ⟨hmoved, hbefore, hafter, page, hpage, hle, hempty⟩ := hfailed
  have hlost (other : Nat) (hother : other ∈ watch.lost ++ [cursor'.nextPage - 1]) :
      other < cursor'.nextPage := by
    rcases List.mem_append.mp hother with hold | hnew
    · exact Nat.lt_of_lt_of_le (h.lost other hold) hmoved.onward
    · rw [List.mem_singleton.mp hnew]
      omega
  refine ⟨hmoved.steady, h.small, hstands, hmoved.fits, hmoved.pages.trans h.pages, hlost, ?_⟩
  -- The pages before the lost one were empty, so the account goes on behind it without its tuples.
  have hentries := h.entries
  rw [hbefore] at hentries
  dsimp only
  rw [hafter, hentries, entriesBut_congr hmoved.entries, hpage, Nat.add_sub_cancel, entriesBut_concat,
    entriesBut_append h.lost hle, hempty, List.append_nil]

theorem Accounts.play {δ : Type} {scanner : Scanner σ δ} (hlawful : scanner.Lawful file Stands)
    (h : watch.Accounts file Stands cursor held) {event : Event δ} (hevent : event.Spares file watch.db) :
    ∃ cursor' held', (scanner.play file watch event).Accounts file Stands cursor' held' := by
  cases event with
  | use use =>
    obtain ⟨hedits, hkeeps, hextent, hentries⟩ := hevent
    have hserving := h.steady.serving.leaves (fun _ => Tuple.Built.complete) hedits hkeeps
    have hsmall : file.pageTotal (use.leaves watch.db).volume < UInt32.size := by
      rw [pageTotal_eq_extent hserving.size, hextent, ← pageTotal_eq_extent h.steady.serving.size]
      exact h.steady.small
    have hsteady := h.steady.leaves (fun _ => Tuple.Built.complete) hedits hkeeps hsmall
    refine ⟨cursor, held, hsteady, h.small, h.stands, h.fits, h.pages, h.lost, ?_⟩
    exact h.entries.trans (entriesBut_congr hentries _ _).symm
  | ask demand =>
    have hreplies := hlawful.replies demand _ _ _ watch.db h.stands h.fits h.steady
    rw [Scanner.play]
    cases hrun : scanner.reply demand (watch.state, watch.db) with
    | ok answer x =>
      rw [hrun] at hreplies
      rcases hreplies with ⟨rfl, hdb, hstands⟩ | ⟨hdone, cursor', held', given, hstands, hgave, hout, _⟩
      · rw [← hdb] at hstands
        exact ⟨_, _, accounts_opened (hdb ▸ h.steady) hstands⟩
      · dsimp only
        rw [if_neg hdone]
        exact ⟨cursor', held', h.gave hgave hout hstands⟩
    | error e x =>
      rw [hrun] at hreplies
      obtain ⟨rfl, cursor', hstands, hlost⟩ := hreplies
      dsimp only
      rw [hlawful.nextPage _ _ _ hstands]
      exact ⟨cursor', [], h.failed hlost hstands⟩

theorem Accounts.playAll {δ : Type} {scanner : Scanner σ δ} (hlawful : scanner.Lawful file Stands)
    {events : List (Event δ)} {watch : Watch σ} {cursor : Cursor} {held : List Tuple}
    (h : watch.Accounts file Stands cursor held) (hevents : scanner.Undisturbed file events watch) :
    ∃ cursor' held', (scanner.playAll file events watch).Accounts file Stands cursor' held' := by
  induction events generalizing watch cursor held with
  | nil => exact ⟨cursor, held, h⟩
  | cons event events ih =>
    obtain ⟨cursor', held', hnext⟩ := h.play hlawful hevents.1
    exact ih hnext hevents.2

theorem Accounts.settled {δ : Type} {scanner : Scanner σ δ} (hlawful : scanner.Lawful file Stands)
    (h : watch.Accounts file Stands cursor held) : scanner.Settled file watch := by
  intro demand answer x hreply hends
  have hreplies := hlawful.replies demand _ _ _ watch.db h.stands h.fits h.steady
  rw [hreply] at hreplies
  have hdone : answer ≠ .done := by rcases hends with rfl | rfl <;> intro heq <;> cases heq
  have hnone : answer.tuples = [] := by rcases hends with rfl | rfl <;> rfl
  rcases hreplies with ⟨heq, _⟩ | ⟨_, cursor', held', given, hstands, hgave, hout, hend⟩
  · exact absurd heq hdone
  · obtain ⟨⟨hleft, hbuffered⟩, rfl⟩ := hend hends
    have hlast := h.gave hgave hout hstands
    have hpages := hlast.pages
    have hreturned := hlast.entries
    rw [hleft, Nat.add_zero] at hpages
    dsimp only at hpages hreturned
    rw [hbuffered, hnone, hpages, entriesBut_congr hgave.moved.entries] at hreturned
    simp only [List.append_nil] at hreturned
    have hlost (page : Nat) (hpage : page ∈ watch.lost) : page < watch.pages := by
      rw [← hpages]
      exact hlast.lost page hpage
    refine ⟨hreturned, ?_⟩
    rw [hreturned]
    exact mem_entriesBut_iff h.small hlost

end Watch

theorem Scanner.Lawful.settled {σ δ : Type} {scanner : Scanner σ δ} {file : TableFile}
    {Stands : σ → Cursor → List Tuple → Prop} (hlawful : scanner.Lawful file Stands) {db : Database}
    (h : Steady file db) {state : σ} (hstands : Stands state (Cursor.start file db.volume) [])
    {events : List (Event δ)} (hevents : scanner.Undisturbed file events (.opened file state db)) :
    scanner.Settled file (scanner.playAll file events (.opened file state db)) := by
  obtain ⟨_, _, hlast⟩ := (Watch.accounts_opened h hstands).playAll hlawful hevents
  exact hlast.settled hlawful

variable {file : TableFile}

theorem Cursor.Gave.refl {cursor : Cursor} (hcursor : cursor.Fits file) {db : Database}
    (h : Steady file db) : cursor.Gave file db [] cursor db := by
  refine ⟨.refl hcursor h, ?_⟩
  simp

theorem Cursor.lawful_scanner (file : TableFile) :
    Cursor.scanner.Lawful file fun state cursor held => state = cursor ∧ held = [] := by
  constructor
  case nextPage =>
    rintro state cursor held ⟨rfl, _⟩
    rfl
  case replies =>
    rintro demand state cursor held db ⟨rfl, rfl⟩ hfits hsteady
    cases demand with
    | next =>
      have hsteps := next_steps hfits hsteady
      change Scanner.Replies file _ db state [] (EStateM.map Answer.row Cursor.next (state, db))
      rw [EStateM.map]
      cases hrun : Cursor.next (state, db) with
      | ok answer x =>
        rw [hrun] at hsteps
        obtain ⟨hgave, hend⟩ := hsteps
        refine Or.inr ⟨by rintro ⟨⟩, x.1, [], answer.toList, ⟨rfl, rfl⟩, hgave, ?_, ?_⟩
        · simp [Answer.tuples]
        · rintro (hnone | hmore)
          · cases hnone
            exact ⟨hend rfl, rfl⟩
          · cases hmore
      | error e x =>
        rw [hrun] at hsteps
        exact ⟨rfl, x.1, ⟨rfl, rfl⟩, hsteps⟩
    | rewind => exact Or.inl ⟨rfl, rfl, by rw [hfits.home], rfl⟩

namespace Source

/-- What a pull of a scan that stands at the cursor may come to. -/
def ScanSteps (file : TableFile) (db : Database) (cursor : Cursor) :
    EStateM.Result Fault (Option Cursor × Database) (Option Tuple) → Prop
  | .ok answer (state, db') => ∃ cursor', state = some cursor' ∧
      cursor.Gave file db answer.toList cursor' db' ∧ (answer = none → cursor'.Finished)
  | .error _ (state, db') => ∃ cursor', state = some cursor' ∧ cursor.Lost file db cursor' db'

theorem pullScan_steps (qualifier : String) {cursor : Cursor} (hcursor : cursor.Fits file)
    {db : Database} (h : Steady file db) :
    ScanSteps file db cursor ((scan file (file.schema.qualify qualifier)).pull (some cursor, db)) := by
  have hsteps := Cursor.next_steps hcursor h
  have hfits := Cursor.next_fits hcursor h.serving
  dsimp only [scan]
  rw [pullScan]
  cases hrun : Cursor.next (cursor, db) with
  | error e x =>
    rw [hrun] at hsteps
    exact ⟨x.1, rfl, hsteps⟩
  | ok answer x =>
    rw [hrun] at hsteps hfits
    obtain ⟨hgave, hend⟩ := hsteps
    cases answer with
    | none => exact ⟨x.1, rfl, hgave, hend⟩
    | some t =>
      have hagrees : (file.schema.qualify qualifier).Agrees t.schema := by
        rw [Schema.Agrees, Schema.types_qualify]
        exact (hfits.1 t rfl).symm
      simp only [Tuple.resetSchema, hagrees, if_true]
      refine ⟨x.1, rfl, ⟨hgave.moved, ?_⟩, by rintro ⟨⟩⟩
      exact hgave.entries

theorem lawful_scanner (file : TableFile) (qualifier : String) :
    (scanner file (file.schema.qualify qualifier)).Lawful file fun look cursor held =>
      look.isOpen = true ∧ look.inner = some cursor ∧ look.peeked.toList = held := by
  constructor
  case nextPage =>
    rintro look cursor held ⟨_, hinner, _⟩
    simp [scanner, hinner]
  case replies =>
    rintro demand ⟨inner, isOpen, peeked⟩ cursor held db ⟨hopen, hinner, hheld⟩ hfits hsteady
    cases hopen
    cases hinner
    cases hheld
    have hsteps := pullScan_steps qualifier hfits hsteady
    have hkept := Cursor.Gave.refl hfits hsteady
    rcases demand.rewind_or_pulls with rfl | hpulls
    · have hstart : Cursor.start cursor.file db.volume = Cursor.start file db.volume := by rw [hfits.home]
      exact Or.inl ⟨rfl, rfl, rfl, congrArg some hstart, rfl⟩
    · dsimp only [scanner]
      cases peeked with
      | some t =>
        rw [respond_of_peeked hpulls]
        refine Or.inr ⟨Demand.answerWith_ne_done hpulls _, cursor, (demand.keeps (some t)).toList, [],
          ⟨rfl, rfl, rfl⟩, hkept, ?_, fun hends => ?_⟩
        · rw [Demand.tuples_answerWith hpulls, List.append_nil]
        · cases Demand.eq_none_of_ends hpulls hends
      | none =>
        cases hrun : (scan file (file.schema.qualify qualifier)).pull (some cursor, db) with
        | ok answer x =>
          rw [hrun] at hsteps
          obtain ⟨cursor', hinner, hgave, hend⟩ := hsteps
          rw [respond_of_pull hpulls hrun]
          refine Or.inr ⟨Demand.answerWith_ne_done hpulls _, cursor', (demand.keeps answer).toList,
            answer.toList, ⟨rfl, hinner, rfl⟩, hgave, ?_, fun hends => ?_⟩
          · rw [Demand.tuples_answerWith hpulls]
            rfl
          · cases Demand.eq_none_of_ends hpulls hends
            refine ⟨hend rfl, ?_⟩
            cases demand <;> rfl
        | error e x =>
          rw [hrun] at hsteps
          obtain ⟨cursor', hinner, hlost⟩ := hsteps
          rw [respond_of_pull_error hpulls hrun]
          exact ⟨rfl, cursor', ⟨rfl, hinner, rfl⟩, hlost⟩

end Source

namespace Database

/-- A cursor over the file, or an operator that scans it, is opened after any run, at any capacity of the
pool, and asked on after errors while the table stays as it is. At the end it has returned the entries of
the pages that were counted without those at which it failed, and all entries exactly if these have none. -/
theorem scan_end_but_lost {uses : List Use} {file : TableFile}
    (huses : ∀ use ∈ uses, use.Edits Tuple.Built ∧ use.Keeps (ColumnsOf file)) (config : Config)
    (volume : Volume) (hsize : file.pageSize = config.pageSize)
    (hsmall : file.pageTotal (play uses (onVolume config volume)).volume < UInt32.size) :
    let db := play uses (onVolume config volume)
    (∀ events : List (Event CursorDemand),
      let opened := Watch.opened file (Cursor.start file db.volume) db
      Cursor.scanner.Undisturbed file events opened →
        Cursor.scanner.Settled file (Cursor.scanner.playAll file events opened)) ∧
      ∀ qualifier look state db',
        let scanner := Source.scanner file (file.schema.qualify qualifier)
        (Source.scan file (file.schema.qualify qualifier)).open (look, db) = .ok () (state, db') →
          ∀ events : List (Event Demand),
            let opened := Watch.opened file state db'
            scanner.Undisturbed file events opened →
              scanner.Settled file (scanner.playAll file events opened) := by
  intro db
  have hsteady : Steady file db := steady_play huses config volume hsize hsmall
  constructor
  · intro events opened hevents
    exact (Cursor.lawful_scanner file).settled hsteady ⟨rfl, rfl⟩ hevents
  · intro qualifier look state db' scanner hopen events opened hevents
    cases hopen
    exact (Source.lawful_scanner file qualifier).settled hsteady ⟨rfl, rfl, rfl⟩ hevents

/-- A dirty page whose table lost its name fills the only frame: the scan loses its first page, and returns
the row of the second one after the dirty page is dropped. -/
theorem scan_end_but_lost_first_page :
    let schema : Schema := ⟨[{ type := .integer }], List.cons_ne_nil _ _⟩
    let file : TableFile := ⟨0, ⟨"t", 9⟩, schema, by decide, by decide⟩
    let config : Config := { pageSize := 9, poolPages := 1 }
    let insert (name : String) (value : Int32) : Use :=
      .call (.insert ⟨1⟩ (.file name) ⟨schema, [.int value], none⟩)
    let uses : List Use := [.create "t" "t" schema "", insert "t" 1, insert "t" 2, insert "t" 3,
      .call (.complete ⟨1⟩ true), .create "s" "s" schema "", insert "s" 4, .create "u" "s" schema ""]
    let db := play uses (onVolume config {})
    let opened := Watch.opened file (Cursor.start file db.volume) db
    let events : List (Event CursorDemand) := [.ask .next, .use (.call (.discard ⟨.file "s", 0⟩)), .ask .next]
    let watch := Cursor.scanner.playAll file events opened
    (∀ use ∈ uses, use.Edits Tuple.Built ∧ use.Keeps (ColumnsOf file)) ∧ file.pageSize = config.pageSize ∧
      file.pageTotal db.volume < UInt32.size ∧ Cursor.scanner.Undisturbed file events opened ∧
        Cursor.scanner.Settled file watch ∧ watch.pages = 2 ∧ watch.lost = [0] ∧
          watch.returned.map Tuple.entry = [(some ⟨⟨file.id, 1⟩, 0⟩, [.int 3])] ∧
            outcome (Cursor.next (watch.state, watch.db)) = .ok none := by
  intro schema file config insert uses db opened events watch
  have huses : ∀ use ∈ uses, use.Edits Tuple.Built ∧ use.Keeps (ColumnsOf file) := by
    have hinsert (name : String) (value : Int32) : (insert name value).Edits Tuple.Built ∧
        (insert name value).Keeps (ColumnsOf file) := by
      have hbuilt : Tuple.ofFields schema [.int value] = .ok ⟨schema, [.int value], none⟩ := rfl
      exact ⟨.ofFields hbuilt, trivial⟩
    have hcreate (path name : String) : (Use.create path name schema "").Edits Tuple.Built ∧
        (Use.create path name schema "").Keeps (ColumnsOf file) := ⟨trivial, fun _ _ _ => rfl⟩
    simp only [uses, List.forall_mem_cons]
    exact ⟨hcreate _ _, hinsert _ _, hinsert _ _, hinsert _ _, ⟨trivial, trivial⟩, hcreate _ _,
      hinsert _ _, hcreate _ _, List.forall_mem_nil _⟩
  have hsmall : file.pageTotal db.volume < UInt32.size := by decide +kernel
  have hevents : Cursor.scanner.Undisturbed file events opened := by
    refine ⟨trivial, Event.spares_discard ?_, trivial, trivial⟩
    decide
  have hsettled := (scan_end_but_lost huses config {} rfl hsmall).1 events hevents
  exact ⟨huses, rfl, hsmall, hevents, hsettled, by decide +kernel, by decide +kernel, by decide +kernel,
    by decide +kernel⟩

/-- Without frames the cursor fails at the only page and then reports the end, and the row that is stored
there has not been returned. -/
theorem row_missed_after_error :
    let schema : Schema := ⟨[{ type := .integer, name := some "a" }], List.cons_ne_nil _ _⟩
    let file : TableFile := ⟨0, ⟨"t.dat", 32⟩, schema, by decide, by decide⟩
    let create : Use := .create "t.dat" "t" schema "a"
    let stored := play [create, .call (.insert ⟨1⟩ file.id ⟨schema, [.int 7], none⟩), .call .flushAll]
      (onVolume { pageSize := 32, poolPages := 1 } {})
    let db := play [create] (onVolume { pageSize := 32, poolPages := 0 } stored.volume)
    let watch := Cursor.scanner.playAll file [.ask .next] (.opened file (Cursor.start file db.volume) db)
    outcome (Cursor.next (Cursor.start file db.volume, db)) = .error (.error (.poolExhausted 0)) ∧
      (∃ x, Cursor.scanner.reply .next (watch.state, watch.db) = .ok (.row none) x) ∧ watch.pages = 1 ∧
        watch.returned = [] ∧ (some ⟨⟨file.id, 0⟩, 0⟩, [.int 7]) ∈ watch.db.entriesAt file 0 := by
  intro schema file create stored db watch
  have hend : outcome (Cursor.scanner.reply .next (watch.state, watch.db)) = .ok (.row none) := by
    decide +kernel
  exact ⟨by decide +kernel, exists_ok_of_outcome hend, by decide +kernel, by decide +kernel,
    by decide +kernel⟩

end Database
end RowStore
