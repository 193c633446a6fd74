import RowStore.Proofs.Deletion

/-!
# Plans that are detached from a table

A chain that is open only pages, and unless it scans the table it does not notice what is inserted
there: it yields given rows, the rows of another table, or groups that it has counted when it was opened.
This is said of two runs of a source side by side, over two databases that differ in the one table: where
one run takes a tuple, the other takes the same.
-/
namespace RowStore
open Relation Database

theorem Aggregation.schema_rows {aggregation : Aggregation} {groups : Groups} {rows : List Tuple}
    (h : aggregation.rows groups = .ok rows) : ∀ t ∈ rows, t.schema = aggregation.schema := by
  have hrows := forall₂_of_mapM h
  clear h
  generalize groups.entries = entries at hrows
  induction hrows with
  | nil =>
    intro t ht
    cases ht
  | @cons entry row entries rows hrow _ ih =>
    intro t ht
    rcases List.mem_cons.mp ht with rfl | hmem
    · rw [Aggregation.row] at hrow
      cases hvalue : entry.2.result aggregation.function with
      | error e =>
        rw [hvalue] at hrow
        cases hrow
      | ok value =>
        rw [hvalue] at hrow
        exact (Tuple.valid_of_ofFields hrow).2
    · exact ih t hmem

namespace Source
variable {σ β : Type} {source : Source σ}

theorem forEach_success {step : Tuple → Run β Unit}
    {motive : (Lookahead σ × β) × Database → (Lookahead σ × β) × Database → Prop}
    (last : ∀ {x y b}, source.next x = .ok none y → motive ((x.1, b), x.2) ((y.1, b), y.2))
    (next : ∀ {x y b b' t db z}, source.next x = .ok (some t) y → step t (b, y.2) = .ok () (b', db) →
      motive ((y.1, b'), db) z → motive ((x.1, b), x.2) z)
    {s s' : (Lookahead σ × β) × Database} (h : source.forEach step s = .ok () s') : motive s s' := by
  refine Countdown.run_induction (fun _ _ => source.remaining_feed step)
    (motive := fun s r => ∀ s', r = .ok () s' → motive s s') ?_ ?_ s s' h
  · rintro ⟨⟨look, b⟩, db⟩ r hfeed s' rfl
    unfold feed at hfeed
    split at hfeed
    · cases hfeed
    · next hnext =>
      cases hfeed
      exact last hnext
    · split at hfeed <;> cases hfeed
  · rintro ⟨⟨look, b⟩, db⟩ middle r hfeed ih s' hr
    unfold feed at hfeed
    split at hfeed
    · cases hfeed
    · cases hfeed
    · next hnext =>
      split at hfeed
      · cases hfeed
      · next hstep =>
        cases hfeed
        exact next hnext hstep (ih s' hr)

/-- What holds of the end and of a match, and is passed back by each tuple that does not match, holds of
a search that succeeds. -/
theorem firstMatch_success {accepts : Tuple → Except StoreError Bool}
    {motive : Lookahead σ × Database → Option Tuple → Lookahead σ × Database → Prop}
    (last : ∀ {x y}, source.next x = .ok none y → motive x none y)
    (found : ∀ {x y t}, source.next x = .ok (some t) y → accepts t = .ok true → motive x (some t) y)
    (pass : ∀ {x y t answer z}, source.next x = .ok (some t) y → accepts t = .ok false →
      motive y answer z → motive x answer z)
    {x y : Lookahead σ × Database} {answer : Option Tuple}
    (h : source.firstMatch accepts x = .ok answer y) : motive x answer y := by
  refine Countdown.run_induction (fun _ _ => source.remaining_tryNext accepts)
    (motive := fun x r => ∀ answer y, r = .ok answer y → motive x answer y) ?_ ?_ x answer y h
  · rintro x r htry answer y rfl
    unfold tryNext at htry
    split at htry
    · cases htry
    · next hnext =>
      cases htry
      exact last hnext
    · next hnext =>
      split at htry
      · cases htry
      · next hholds =>
        cases htry
        exact found hnext hholds
      · cases htry
  · rintro x middle r htry ih answer y hr
    unfold tryNext at htry
    split at htry
    · cases htry
    · cases htry
    · next hnext =>
      split at htry
      · cases htry
      · cases htry
      · next hholds =>
        cases htry
        exact pass hnext hholds (ih answer y hr)

/-- Where the source succeeds, it has only read and written back pages. -/
structure Pages (source : Source σ) : Prop where
  start : ∀ {s db s' db'}, db.Coherent → source.start (s, db) = .ok () (s', db') →
    ReflTransGen Paging db db'
  pull : ∀ {s db answer s' db'}, db.Coherent → source.pull (s, db) = .ok answer (s', db') →
    ReflTransGen Paging db db'

theorem Pages.next (h : source.Pages) {x y : Lookahead σ × Database} (hcoherent : x.2.Coherent)
    {answer : Option Tuple} (hnext : source.next x = .ok answer y) : ReflTransGen Paging x.2 y.2 := by
  obtain ⟨look, db⟩ := x
  rw [Source.next] at hnext
  split at hnext
  · split at hnext
    · cases hnext
      exact .refl
    · split at hnext
      · next hpull =>
        cases hnext
        exact h.pull hcoherent hpull
      · cases hnext
  · cases hnext

theorem Pages.firstMatch (h : source.Pages) {accepts : Tuple → Except StoreError Bool}
    {x y : Lookahead σ × Database} (hcoherent : x.2.Coherent) {answer : Option Tuple}
    (hmatch : source.firstMatch accepts x = .ok answer y) : ReflTransGen Paging x.2 y.2 := by
  refine firstMatch_success (motive := fun x _ y => x.2.Coherent → ReflTransGen Paging x.2 y.2) ?_ ?_ ?_
    hmatch hcoherent
  · intro x y hnext hx
    exact h.next hx hnext
  · intro x y t hnext _ hx
    exact h.next hx hnext
  · intro x y t answer z hnext _ ih hx
    have hfirst := h.next hx hnext
    exact hfirst.trans (ih (hx.pages hfirst).1)

theorem Pages.forEach (h : source.Pages) {step : Tuple → Run β Unit}
    (hstep : ∀ {t b db b' db'}, step t (b, db) = .ok () (b', db') → db' = db)
    {s s' : (Lookahead σ × β) × Database} (hcoherent : s.2.Coherent)
    (hloop : source.forEach step s = .ok () s') : ReflTransGen Paging s.2 s'.2 := by
  refine forEach_success (motive := fun s s' => s.2.Coherent → ReflTransGen Paging s.2 s'.2) ?_ ?_
    hloop hcoherent
  · intro x y b hnext hx
    exact h.next hx hnext
  · intro x y b b' t db z hnext hfed ih hx
    have hfirst := h.next hx hnext
    cases hstep hfed
    exact hfirst.trans (ih (hx.pages hfirst).1)

theorem pages_rows : rows.Pages := by
  constructor
  case start =>
    intro s db s' db' _ hstart
    cases hstart
    exact .refl
  case pull =>
    intro s db answer s' db' _ hpull
    cases hpull
    exact .refl

end Source

/-- The search for a page with tuples only pages, whatever it searches. -/
theorem Cursor.advance_pages {file : TableFile} (left page : Nat) {db db' : Database} (h : db.Coherent)
    {answer : Option Tuple} {cursor : Cursor} (hadvance : advance file page left db = .ok answer (cursor, db')) :
    ReflTransGen Paging db db' := by
  induction left generalizing page db with
  | zero =>
    cases hadvance
    exact .refl
  | succ left ih =>
    rw [advance] at hadvance
    have hpages := (fetch_pages h ⟨file.id, UInt32.ofNat page⟩).1
    cases hfetch : fetch ⟨file.id, UInt32.ofNat page⟩ db with
    | error e middle =>
      rw [hfetch] at hadvance
      cases hadvance
    | ok frame middle =>
      rw [after_of_ok hfetch] at hpages
      rw [hfetch] at hadvance
      dsimp only at hadvance
      cases htuples : frame.page.tuples with
      | nil =>
        rw [htuples] at hadvance
        exact hpages.trans (ih (page + 1) (h.pages hpages).1 hadvance)
      | cons t ts =>
        rw [htuples] at hadvance
        cases hadvance
        exact hpages

theorem Cursor.next_pages {cursor cursor' : Cursor} {db db' : Database} {answer : Option Tuple}
    (h : db.Coherent) (hnext : Cursor.next (cursor, db) = .ok answer (cursor', db')) :
    ReflTransGen Paging db db' := by
  obtain ⟨file, page, left, buffered⟩ := cursor
  cases buffered with
  | nil => exact advance_pages left page h hnext
  | cons t ts =>
    cases hnext
    exact .refl

namespace Source
variable {σ : Type} {source : Source σ}

theorem pages_scan (file : TableFile) (schema : Schema) : (scan file schema).Pages := by
  constructor
  case start =>
    intro s db s' db' _ hstart
    cases hstart
    exact .refl
  case pull =>
    intro s db answer s' db' hcoherent hpull
    cases s with
    | none =>
      cases hpull
      exact .refl
    | some cursor =>
      change pullScan schema (some cursor, db) = _ at hpull
      rw [pullScan] at hpull
      split at hpull
      · cases hpull
      · next hnext =>
        cases hpull
        exact Cursor.next_pages hcoherent hnext
      · next hnext =>
        split at hpull
        · cases hpull
        · cases hpull
          exact Cursor.next_pages hcoherent hnext

theorem Pages.open (h : source.Pages) {look : Lookahead σ} {db : Database} {last : Lookahead σ × Database}
    (hcoherent : db.Coherent) (hopen : source.open (look, db) = .ok () last) :
    ReflTransGen Paging db last.2 := by
  obtain ⟨s', db', rfl, hstart⟩ := open_eq_ok hopen
  exact h.start hcoherent hstart

theorem Pages.filter (h : source.Pages) (predicate : Predicate) : (source.filter predicate).Pages := by
  constructor
  case start =>
    intro look db look' db' hcoherent hstart
    exact h.open hcoherent hstart
  case pull =>
    intro look db answer look' db' hcoherent hpull
    exact h.firstMatch hcoherent hpull

theorem start_summary_eq_ok {aggregation : Aggregation} {s : SummaryState σ} {db : Database}
    {last : SummaryState σ × Database} (h : (source.summary aggregation).start (s, db) = .ok () last) :
    ∃ middle look groups rows, source.open (s.child, db) = .ok () middle ∧
      source.forEach (mergeStep aggregation) ((middle.1, ⟨[]⟩), middle.2) = .ok () ((look, groups), last.2) ∧
      aggregation.rows groups = .ok rows ∧ last.1.results = some (.ofRows rows) := by
  change source.startSummary aggregation (s, db) = _ at h
  rw [startSummary] at h
  split at h
  · cases h
  · next hopen =>
    split at h
    · cases h
    · next hloop =>
      split at h
      · cases h
      · next hrows =>
        cases h
        exact ⟨_, _, _, _, hopen, hloop, hrows, rfl⟩

theorem Pages.summary (h : source.Pages) (aggregation : Aggregation) :
    (source.summary aggregation).Pages := by
  constructor
  case start =>
    intro s db s' db' hcoherent hstart
    obtain ⟨middle, look, groups, rows, hopen, hloop, _⟩ := start_summary_eq_ok hstart
    have hfirst := h.open hcoherent hopen
    refine hfirst.trans (h.forEach (fun {t b db b' db'} hstep => ?_) (hcoherent.pages hfirst).1 hloop)
    rw [mergeStep] at hstep
    split at hstep <;> cases hstep
    rfl
  case pull =>
    rintro ⟨child, groups, results⟩ db answer s' db' _ hpull
    cases results <;> cases hpull <;> exact .refl

end Source

theorem Plan.pages {catalog : Catalog} {plan : Plan} (hchain : plan.Chain catalog) :
    plan.source.Pages := by
  induction plan with
  | rows _ _ => exact Source.pages_rows
  | scan file qualifier => exact Source.pages_scan file _
  | filter predicate child ih => exact (ih hchain).filter predicate
  | aggregate aggregation child ih => exact (ih hchain).summary aggregation
  | insert _ _ _ _ | delete _ _ _ => exact hchain.elim

namespace Database

/-- The database can be used, and the tables but the named one are those of the base. -/
structure KeepsOthers (base : Database) (table : TableId) (db : Database) : Prop where
  ready : db.Ready
  small : db.Small
  tables : SameTables base db
  pages : ∀ file, base.catalog.file file.id = .ok file → file.id ≠ table →
    file.pageTotal db.volume = file.pageTotal base.volume
  rows : ∀ file, base.catalog.file file.id = .ok file → file.id ≠ table → ∀ n : PageNo,
    n.toNat < file.pageTotal base.volume → db.rowsAt file n = base.rowsAt file n

variable {base db db' : Database} {table : TableId}

theorem KeepsOthers.paging (h : base.KeepsOthers table db) (hpages : ReflTransGen Paging db db') :
    base.KeepsOthers table db' := by
  obtain ⟨hready, hsame⟩ := h.ready.pages hpages
  constructor
  case ready => exact hready
  case small => exact h.small.of_sameRows h.ready.coherent hsame
  case tables => exact h.tables.trans hsame.tables
  case pages =>
    intro file hfile hother
    rw [hsame.pages file (by rwa [h.tables.catalog]), h.pages file hfile hother]
  case rows =>
    intro file hfile hother n hn
    rw [hsame.rows file (by rwa [h.tables.catalog]), h.rows file hfile hother n hn]

theorem keepsOthers_of_matches {sheets : Sheets} (hcoherent : base.Coherent) (hm : Matches base sheets)
    (hready : db.Ready) (hsmall : db.Small) (htables : SameTables base db) {sheet : Sheet}
    (hm' : Matches db (sheets.put table sheet)) : base.KeepsOthers table db := by
  have hshown (file : TableFile) (hfile : base.catalog.file file.id = .ok file) (hother : file.id ≠ table) :
      Shows db file (sheets file.id) := by
    have hshows := hm' file (by rwa [htables.catalog])
    rwa [Sheets.put, if_neg hother] at hshows
  have htotal (file : TableFile) (hfile : base.catalog.file file.id = .ok file) (hother : file.id ≠ table) :
      file.pageTotal db.volume = file.pageTotal base.volume := by
    rw [← (hm file hfile).pages, ← (hshown file hfile hother).pages]
  constructor
  case ready => exact hready
  case small => exact hsmall
  case tables => exact htables
  case pages => exact htotal
  case rows =>
    intro file hfile hother n hn
    rw [← (hm file hfile).pages] at hn
    apply (hm file hfile).rowsAt_eq (hshown file hfile hother) hn hn
    · rw [hcoherent.length_rowsAt hfile, hready.coherent.length_rowsAt (by rwa [htables.catalog])]
    · exact fun _ => rfl

end Database

namespace Source
variable {σ : Type} {source : Source σ} {base : Database} {table : TableId} {schema : Schema}
  {agree : σ → σ → Prop}

/-- The same answer was given on two sides, by paging, from states that are alike to such states. -/
structure Mirrored {τ : Type} (agree : τ → τ → Prop) (schema : Schema) (answer : Option Tuple)
    (db db' : Database) (last last' : τ × Database) : Prop where
  alike : agree last.1 last'.1
  left : ReflTransGen Paging db last.2
  right : ReflTransGen Paging db' last'.2
  agrees : ∀ t ∈ answer, t.schema.Agrees schema

/-- Where a pull succeeds over a database that keeps all other tables, it gives the same answer over any
other such database. -/
structure Mirrors (source : Source σ) (base : Database) (table : TableId) (schema : Schema)
    (agree : σ → σ → Prop) : Prop where
  pull : ∀ {s s' db db' answer last}, agree s s' → base.KeepsOthers table db → base.KeepsOthers table db' →
    source.pull (s, db) = .ok answer last →
      ∃ last', source.pull (s', db') = .ok answer last' ∧ Mirrored agree schema answer db db' last last'

end Source

/-- Both operators are open, have looked at nothing, and have sources that are alike. -/
def Lookahead.Alike {σ : Type} (agree : σ → σ → Prop) (look look' : Lookahead σ) : Prop :=
  ∃ s s', look = .opened s ∧ look' = .opened s' ∧ agree s s'

namespace Source
variable {σ : Type} {source : Source σ} {base : Database} {table : TableId} {schema : Schema}
  {agree : σ → σ → Prop}

theorem Mirrors.next (h : source.Mirrors base table schema agree) {look look' : Lookahead σ}
    {db db' : Database} (hlook : look.Alike agree look') (hleft : base.KeepsOthers table db)
    (hright : base.KeepsOthers table db') {answer : Option Tuple} {last : Lookahead σ × Database}
    (hnext : source.next (look, db) = .ok answer last) :
    ∃ last', source.next (look', db') = .ok answer last' ∧
      Mirrored (Lookahead.Alike agree) schema answer db db' last last' := by
  obtain ⟨s, s', rfl, rfl, hs⟩ := hlook
  obtain ⟨t, middle, rfl, hpull⟩ := next_opened hnext
  obtain ⟨⟨t', middle'⟩, hpull', hmirrored⟩ := h.pull hs hleft hright hpull
  exact ⟨(.opened t', middle'), next_of_pull hpull', ⟨t, t', rfl, rfl, hmirrored.alike⟩, hmirrored.left,
    hmirrored.right, hmirrored.agrees⟩

section
variable {accepts : Tuple → Except StoreError Bool} {x y : Lookahead σ × Database} {t : Tuple}

theorem firstMatch_of_end (hnext : source.next x = .ok none y) :
    source.firstMatch accepts x = .ok none y := by
  rw [firstMatch_eq, tryNext, hnext]

theorem firstMatch_of_match (hnext : source.next x = .ok (some t) y) (hholds : accepts t = .ok true) :
    source.firstMatch accepts x = .ok (some t) y := by
  rw [firstMatch_eq, tryNext, hnext]
  simp only [hholds]

theorem firstMatch_of_pass (hnext : source.next x = .ok (some t) y) (hholds : accepts t = .ok false) :
    source.firstMatch accepts x = source.firstMatch accepts y := by
  rw [firstMatch_eq, tryNext, hnext]
  simp only [hholds]

end

theorem Mirrors.firstMatch (h : source.Mirrors base table schema agree)
    {accepts : Tuple → Except StoreError Bool} {look look' : Lookahead σ} {db db' : Database}
    (hlook : look.Alike agree look') (hleft : base.KeepsOthers table db) (hright : base.KeepsOthers table db')
    {answer : Option Tuple} {last : Lookahead σ × Database}
    (hmatch : source.firstMatch accepts (look, db) = .ok answer last) :
    ∃ last', source.firstMatch accepts (look', db') = .ok answer last' ∧
      Mirrored (Lookahead.Alike agree) schema answer db db' last last' := by
  refine firstMatch_success (motive := fun x answer last => ∀ look' db', x.1.Alike agree look' →
    base.KeepsOthers table x.2 → base.KeepsOthers table db' →
      ∃ last', source.firstMatch accepts (look', db') = .ok answer last' ∧
        Mirrored (Lookahead.Alike agree) schema answer x.2 db' last last') ?_ ?_ ?_
    hmatch look' db' hlook hleft hright
  · intro x y hnext look' db' hx hleft hright
    obtain ⟨last', hnext', hmirrored⟩ := h.next hx hleft hright hnext
    exact ⟨last', firstMatch_of_end hnext', hmirrored⟩
  · intro x y t hnext hholds look' db' hx hleft hright
    obtain ⟨last', hnext', hmirrored⟩ := h.next hx hleft hright hnext
    exact ⟨last', firstMatch_of_match hnext' hholds, hmirrored⟩
  · intro x y t answer z hnext hholds ih look' db' hx hleft hright
    obtain ⟨middle', hnext', hfirst⟩ := h.next hx hleft hright hnext
    obtain ⟨last', hrest, hmirrored⟩ := ih middle'.1 middle'.2 hfirst.alike (hleft.paging hfirst.left)
      (hright.paging hfirst.right)
    exact ⟨last', (firstMatch_of_pass hnext' hholds).trans hrest, hmirrored.alike,
      hfirst.left.trans hmirrored.left, hfirst.right.trans hmirrored.right, hmirrored.agrees⟩

theorem Mirrors.filter (h : source.Mirrors base table schema agree) (predicate : Predicate) :
    (source.filter predicate).Mirrors base table schema (Lookahead.Alike agree) :=
  ⟨fun hlook hleft hright hpull => h.firstMatch hlook hleft hright hpull⟩

/-- The playbacks have the same rows left, which have the schema. -/
def SamePlayback (schema : Schema) (playback playback' : Playback) : Prop :=
  playback' = playback ∧ ∀ t ∈ playback.rest, t.schema.Agrees schema

theorem SamePlayback.next {playback playback' : Playback} (h : SamePlayback schema playback playback') :
    playback'.next.1 = playback.next.1 ∧ SamePlayback schema playback.next.2 playback'.next.2 ∧
      ∀ t ∈ playback.next.1, t.schema.Agrees schema := by
  obtain ⟨rfl, hagrees⟩ := h
  refine ⟨rfl, ⟨rfl, fun t ht => hagrees t (List.mem_of_mem_tail ht)⟩, fun t ht => ?_⟩
  exact hagrees t (List.mem_of_mem_head? ht)

theorem mirrors_rows : rows.Mirrors base table schema (SamePlayback schema) := by
  constructor
  intro playback playback' db db' answer last hsame _ _ hpull
  cases hpull
  obtain ⟨hanswer, hnext, hagrees⟩ := hsame.next
  refine ⟨(playback'.next.2, db'), ?_, hnext, .refl, .refl, hagrees⟩
  rw [← hanswer]
  rfl

theorem mirrors_summary (aggregation : Aggregation) : (source.summary aggregation).Mirrors base table schema
    fun s s' => ∃ playback playback', s.results = some playback ∧ s'.results = some playback' ∧
      SamePlayback schema playback playback' := by
  constructor
  rintro ⟨child, groups, results⟩ ⟨child', groups', results'⟩ db db' answer last
    ⟨playback, playback', rfl, rfl, hsame⟩ _ _ hpull
  cases hpull
  obtain ⟨hanswer, hnext, hagrees⟩ := hsame.next
  refine ⟨(⟨child', groups', some playback'.next.2⟩, db'), ?_, ⟨_, _, rfl, rfl, hnext⟩, .refl, .refl,
    hagrees⟩
  rw [← hanswer]
  rfl

/-- The scan has the rows ahead, as they are in the base. -/
def ScanAhead (base : Database) (file : TableFile) (schema : Schema) (rest : List Tuple)
    (state : Option Cursor) : Prop :=
  ∃ cursor, state = some cursor ∧ cursor.Stands file (file.pageTotal base.volume) ∧
    rest = (cursor.ahead base).map (Tuple.ofEntry schema)

theorem ScanAhead.pull {file : TableFile} {rest : List Tuple} {state : Option Cursor}
    (h : ScanAhead base file schema rest state) (hfile : base.catalog.file file.id = .ok file)
    (hbase : base.Small) (hother : file.id ≠ table) (hschema : schema.Agrees file.schema) {db : Database}
    (hkeeps : base.KeepsOthers table db) :
    ∃ state' db', (scan file schema).pull (state, db) = .ok rest.head? (state', db') ∧
      ReflTransGen Paging db db' ∧ ScanAhead base file schema rest.tail state' ∧
        ∀ t ∈ rest.head?, t.schema.Agrees schema := by
  obtain ⟨cursor, rfl, hstands, rfl⟩ := h
  have hsmall := hbase _ _ hfile
  have htotal := hkeeps.pages file hfile hother
  have hfile' : db.catalog.file file.id = .ok file := by rwa [hkeeps.tables.catalog]
  have hrows {cursor : Cursor} (hstands : cursor.Stands file (file.pageTotal base.volume)) :
      cursor.ahead db = cursor.ahead base :=
    Cursor.ahead_of_rows hstands hsmall fun n _ hn => hkeeps.rows file hfile hother n hn
  obtain ⟨cursor', db', hpull, hpages, hstands', htail, _, hfirst⟩ := pullScan_ok (by rwa [htotal]) hfile'
    (by rwa [htotal]) hschema (Keeps.refl hkeeps.ready hkeeps.small _)
    (congrArg (List.map (Tuple.ofEntry schema)) (hrows hstands).symm)
  rw [htotal] at hstands'
  rw [hrows hstands'] at htail
  refine ⟨some cursor', db', hpull, hpages, ⟨cursor', rfl, hstands', htail⟩, fun t ht => ?_⟩
  obtain ⟨_, _, hsame⟩ := hfirst t ht
  exact congrArg Schema.types hsame

theorem mirrors_scan {file : TableFile} (hfile : base.catalog.file file.id = .ok file)
    (hbase : base.Small) (hother : file.id ≠ table) (hschema : schema.Agrees file.schema) :
    (scan file schema).Mirrors base table schema fun s s' =>
      ∃ rest, ScanAhead base file schema rest s ∧ ScanAhead base file schema rest s' := by
  constructor
  rintro s s' db db' answer last ⟨rest, hs, hs'⟩ hleft hright hpull
  obtain ⟨t, middle, hfirst, hpages, ht, hagrees⟩ := hs.pull hfile hbase hother hschema hleft
  obtain ⟨t', middle', hfirst', hpages', ht', _⟩ := hs'.pull hfile hbase hother hschema hright
  rw [hfirst] at hpull
  cases hpull
  exact ⟨(t', middle'), hfirst', ⟨rest.tail, ht, ht'⟩, hpages, hpages', hagrees⟩

end Source

namespace Plan

/-- An open plan does not read the table: it yields rows given under its schema, the rows of another
table, or groups. -/
def Detached (table : TableId) : Plan → Prop
  | .rows schema ts => ∀ t ∈ ts, t.schema.Agrees schema
  | .scan file _ => file.id ≠ table
  | .filter _ child => child.Detached table
  | .aggregate _ _ => True
  | .insert _ _ _ | .delete _ _ => False

theorem mirrors {base : Database} (h : base.Ready) (hsmall : base.Small) {table : TableId} {plan : Plan}
    (hchain : plan.Chain base.catalog) (hdetached : plan.Detached table) :
    ∃ agree, plan.source.Mirrors base table plan.schema agree ∧
      ∀ s db, plan.source.start (plan.initial, base) = .ok () (s, db) → agree s s := by
  induction plan with
  | rows schema ts =>
    refine ⟨_, Source.mirrors_rows, fun s db hstart => ?_⟩
    cases hstart
    exact ⟨rfl, hdetached⟩
  | scan file qualifier =>
    refine ⟨_, Source.mirrors_scan hchain hsmall hdetached (Schema.agrees_qualify qualifier file.schema),
      fun s db hstart => ?_⟩
    cases hstart
    rw [Source.start_eq (Keeps.refl h hsmall fun _ => True) hchain]
    exact ⟨_, ⟨_, rfl, Cursor.stands_start file _, rfl⟩, ⟨_, rfl, Cursor.stands_start file _, rfl⟩⟩
  | filter predicate child ih =>
    obtain ⟨agree, hmirrors, hstarted⟩ := ih hchain hdetached
    refine ⟨_, hmirrors.filter predicate, fun look db hopen => ?_⟩
    obtain ⟨s, middle, hlast, hstart⟩ := Source.open_eq_ok hopen
    cases hlast
    exact ⟨s, s, rfl, rfl, hstarted s _ hstart⟩
  | aggregate aggregation child ih =>
    refine ⟨_, Source.mirrors_summary aggregation, fun s db hstart => ?_⟩
    obtain ⟨_, _, groups, rows, _, _, hrows, hresults⟩ := Source.start_summary_eq_ok hstart
    refine ⟨_, _, hresults, hresults, rfl, fun t ht => ?_⟩
    exact congrArg Schema.types (Aggregation.schema_rows hrows t ht)
  | insert _ _ _ _ | delete _ _ _ => exact hdetached.elim

end Plan
end RowStore
