import RowStore.Proofs.Progress
import RowStore.Query.Filter
import RowStore.Query.Leaf

/-!
# Sources that enumerate lists

A source enumerates a list over a database when it can be started there, each pull takes the first of
the tuples that are ahead, and a restart puts the list ahead again, all with paging only. In between
others may change the pages that the source has read, but not those it still reads. Given rows are
enumerated, filters enumerate what they keep, and a loop over a source can be followed by an invariant.
-/
namespace RowStore
open Relation

namespace Database

/-- The database can be used, it has the pages of the base, and the rows of the base on the pages that
are still to be read. -/
structure Keeps (base : Database) (reads : PageId → Prop) (db : Database) : Prop where
  ready : db.Ready
  small : db.Small
  tables : SameTables base db
  pages : ∀ file, base.catalog.file file.id = .ok file →
    file.pageTotal db.volume = file.pageTotal base.volume
  rows : ∀ file, base.catalog.file file.id = .ok file → ∀ n : PageNo, reads ⟨file.id, n⟩ →
    n.toNat < file.pageTotal base.volume → db.rowsAt file n = base.rowsAt file n

theorem Keeps.refl {base : Database} (hready : base.Ready) (hsmall : base.Small)
    (reads : PageId → Prop) : base.Keeps reads base :=
  ⟨hready, hsmall, .refl base, fun _ _ => rfl, fun _ _ _ _ _ => rfl⟩

theorem Keeps.mono {base db : Database} {reads fewer : PageId → Prop} (h : base.Keeps reads db)
    (hfewer : ∀ id, fewer id → reads id) : base.Keeps fewer db :=
  ⟨h.ready, h.small, h.tables, h.pages, fun file hfile n hn => h.rows file hfile n (hfewer _ hn)⟩

theorem Keeps.paging {base db db' : Database} {reads : PageId → Prop} (h : base.Keeps reads db)
    (hpages : ReflTransGen Paging db db') : base.Keeps reads db' := by
  obtain ⟨hready, hsame⟩ := h.ready.pages hpages
  constructor
  case ready => exact hready
  case small => exact h.small.of_sameRows h.ready.coherent hsame
  case tables => exact h.tables.trans hsame.tables
  case pages =>
    intro file hfile
    rw [hsame.pages file (by rwa [h.tables.catalog]), h.pages file hfile]
  case rows =>
    intro file hfile n hn hcounted
    rw [hsame.rows file (by rwa [h.tables.catalog]), h.rows file hfile n hn hcounted]

end Database

open Database

/-- The tuple was not read from any of these pages. -/
def Tuple.Apart (t : Tuple) (reads : PageId → Prop) : Prop :=
  ∀ record, t.record = some record → ¬ reads record.page

theorem Countdown.run_rule {S R : Type} {left : S → Nat × Nat} {step : S → R ⊕ S} {stuck : S → R}
    (hless : ∀ s s', step s = .inr s' → LessPending (left s') (left s)) {inv : S → Prop} {post : R → Prop}
    (hstep : ∀ s, inv s → Sum.elim post inv (step s)) {s : S} (hs : inv s) :
    post (run left step stuck s) := by
  refine run_induction hless (motive := fun s r => inv s → post r) ?_ ?_ s hs
  · intro s r hlast hs
    have hpost := hstep s hs
    rwa [hlast] at hpost
  · intro s s' r hgoes ih hs
    have hinv := hstep s hs
    rw [hgoes] at hinv
    exact ih hinv

/-- An open operator that has looked at nothing. -/
def Lookahead.opened {σ : Type} (s : σ) : Lookahead σ := { inner := s, isOpen := true }

namespace Source
variable {σ β : Type}

section
variable {source : Source σ} {look look' : Lookahead σ} {b b' : β} {db middle db' : Database}

theorem feed_of_end (step : Tuple → Run β Unit) (hnext : source.next (look, db) = .ok none (look', db')) :
    source.feed step ((look, b), db) = .inl (.ok () ((look', b), db')) := by
  rw [feed, hnext]

theorem feed_of_ok {step : Tuple → Run β Unit} {t : Tuple}
    (hnext : source.next (look, db) = .ok (some t) (look', middle))
    (hstep : step t (b, middle) = .ok () (b', db')) :
    source.feed step ((look, b), db) = .inr ((look', b'), db') := by
  simp only [feed, hnext, hstep]

theorem feed_of_error {step : Tuple → Run β Unit} {t : Tuple} {e : Fault}
    (hnext : source.next (look, db) = .ok (some t) (look', middle))
    (hstep : step t (b, middle) = .error e (b', db')) :
    source.feed step ((look, b), db) = .inl (.error e ((look', b'), db')) := by
  simp only [feed, hnext, hstep]

end

section
variable {source : Source σ} {s s' : σ} {db db' : Database} {answer : Option Tuple}
  {last : Lookahead σ × Database}

theorem open_of_start {look : Lookahead σ} (h : source.start (look.inner, db) = .ok () (s', db')) :
    source.open (look, db) = .ok () (.opened s', db') := by
  simp only [Source.open, h, Lookahead.opened]

theorem open_eq_ok {look : Lookahead σ} (h : source.open (look, db) = .ok () last) :
    ∃ s' db', last = (.opened s', db') ∧ source.start (look.inner, db) = .ok () (s', db') := by
  rw [Source.open] at h
  cases hstart : source.start (look.inner, db) with
  | error e last =>
    rw [hstart] at h
    cases h
  | ok u last =>
    rw [hstart] at h
    cases h
    exact ⟨_, _, rfl, rfl⟩

theorem next_of_pull (h : source.pull (s, db) = .ok answer (s', db')) :
    source.next (.opened s, db) = .ok answer (.opened s', db') := by
  simp only [Source.next, Lookahead.opened, if_true, h]

theorem next_opened (h : source.next (.opened s, db) = .ok answer last) :
    ∃ s' db', last = (.opened s', db') ∧ source.pull (s, db) = .ok answer (s', db') := by
  simp only [Source.next, Lookahead.opened, if_true] at h
  cases hpull : source.pull (s, db) with
  | error e last =>
    rw [hpull] at h
    cases h
  | ok t last =>
    rw [hpull] at h
    cases h
    exact ⟨_, _, rfl, rfl⟩

end

theorem forEach_rule (source : Source σ) (step : Tuple → Run β Unit)
    {inv : (Lookahead σ × β) × Database → Prop}
    {post : EStateM.Result Fault ((Lookahead σ × β) × Database) Unit → Prop}
    (hstep : ∀ s, inv s → Sum.elim post inv (source.feed step s))
    {s : (Lookahead σ × β) × Database} (hs : inv s) : post (source.forEach step s) :=
  Countdown.run_rule (fun _ _ => source.remaining_feed step) hstep hs

theorem firstMatch_rule (source : Source σ) (accepts : Tuple → Except StoreError Bool)
    {inv : Lookahead σ × Database → Prop}
    {post : EStateM.Result Fault (Lookahead σ × Database) (Option Tuple) → Prop}
    (hstep : ∀ x, inv x → Sum.elim post inv (source.tryNext accepts x))
    {x : Lookahead σ × Database} (hx : inv x) : post (source.firstMatch accepts x) :=
  Countdown.run_rule (fun _ _ => source.remaining_tryNext accepts) hstep hx

end Source

/-- Started from `init`, the source enumerates the tuples over the base. -/
structure Enumeration {σ : Type} (source : Source σ) (init : σ) (base : Database) (ts : List Tuple) where
  /-- The tuples that the state has not yielded yet. -/
  ahead : σ → List Tuple → Prop
  /-- The pages that the state may read until it has yielded them. -/
  reads : σ → PageId → Prop
  start : ∀ {db}, base.Keeps (fun _ => True) db →
    ∃ s db', source.start (init, db) = .ok () (s, db') ∧ ReflTransGen Paging db db' ∧ ahead s ts
  pull : ∀ {s rest db}, ahead s rest → base.Keeps (reads s) db →
    ∃ s' db', source.pull (s, db) = .ok rest.head? (s', db') ∧ ReflTransGen Paging db db' ∧
      ahead s' rest.tail ∧ (∀ id, reads s' id → reads s id) ∧ ∀ t ∈ rest.head?, t.Apart (reads s')
  restart : ∀ {s rest db}, ahead s rest → base.Keeps (fun _ => False) db →
    ∃ s' db', source.restart (s, db) = .ok () (s', db') ∧ ReflTransGen Paging db db' ∧ ahead s' ts

namespace Enumeration
variable {σ : Type} {source : Source σ} {init : σ} {base : Database} {ts : List Tuple}

theorem open_ok (e : Enumeration source init base ts) {db : Database}
    (hkeeps : base.Keeps (fun _ => True) db) :
    ∃ s db', source.open ({ inner := init }, db) = .ok () (.opened s, db') ∧
      ReflTransGen Paging db db' ∧ e.ahead s ts := by
  obtain ⟨s, db', hstart, hpages, hs⟩ := e.start hkeeps
  exact ⟨s, db', Source.open_of_start hstart, hpages, hs⟩

theorem next_ok (e : Enumeration source init base ts) {s : σ} {rest : List Tuple} {db : Database}
    (hs : e.ahead s rest) (hkeeps : base.Keeps (e.reads s) db) :
    ∃ s' db', source.next (.opened s, db) = .ok rest.head? (.opened s', db') ∧
      ReflTransGen Paging db db' ∧ e.ahead s' rest.tail ∧ (∀ id, e.reads s' id → e.reads s id) ∧
        ∀ t ∈ rest.head?, t.Apart (e.reads s') := by
  obtain ⟨s', db', hpull, hnext⟩ := e.pull hs hkeeps
  exact ⟨s', db', Source.next_of_pull hpull, hnext⟩

theorem rewind_ok (e : Enumeration source init base ts) {s : σ} {rest : List Tuple} {db : Database}
    (hs : e.ahead s rest) (hkeeps : base.Keeps (fun _ => False) db) :
    ∃ s' db', source.rewind (.opened s, db) = .ok () (.opened s', db') ∧
      ReflTransGen Paging db db' ∧ e.ahead s' ts := by
  obtain ⟨s', db', hrestart, hs'⟩ := e.restart hs hkeeps
  refine ⟨s', db', ?_, hs'⟩
  simp only [Source.rewind, Lookahead.opened, if_true, hrestart]

/-- A loop takes all tuples ahead when each step, which may change pages that were read, keeps an
invariant of the tuples left. -/
theorem forEach_ok (e : Enumeration source init base ts) {β : Type} (step : Tuple → Run β Unit)
    (inv : List Tuple → β → Database → Prop)
    (hpaging : ∀ {rest b db db'}, db.Ready → inv rest b db → ReflTransGen Paging db db' → inv rest b db')
    (hstep : ∀ {t rest b reads db}, base.Keeps reads db → t.Apart reads → inv (t :: rest) b db →
      ∃ b' db', step t (b, db) = .ok () (b', db') ∧ base.Keeps reads db' ∧ inv rest b' db')
    {s : σ} {rest : List Tuple} {b : β} {db : Database} (hs : e.ahead s rest)
    (hkeeps : base.Keeps (e.reads s) db) (hinv : inv rest b db) :
    ∃ s' b' db', source.forEach step ((.opened s, b), db) = .ok () ((.opened s', b'), db') ∧
      base.Keeps (e.reads s') db' ∧ inv [] b' db' := by
  induction rest generalizing s b db with
  | nil =>
    obtain ⟨s', db', hnext, hpages, -, hfewer, -⟩ := e.next_ok hs hkeeps
    refine ⟨s', b, db', ?_, (hkeeps.paging hpages).mono hfewer, hpaging hkeeps.ready hinv hpages⟩
    rw [Source.forEach_eq, Source.feed_of_end step hnext]
  | cons t rest ih =>
    obtain ⟨middle, db₁, hnext, hpages, hmiddle, hfewer, hapart⟩ := e.next_ok hs hkeeps
    have hkept := (hkeeps.paging hpages).mono hfewer
    obtain ⟨b₂, db₂, happly, hkeeps₂, hinv₂⟩ :=
      hstep hkept (hapart t rfl) (hpaging hkeeps.ready hinv hpages)
    obtain ⟨s', b', db', hrest, hdone⟩ := ih hmiddle hkeeps₂ hinv₂
    refine ⟨s', b', db', ?_, hdone⟩
    rw [Source.forEach_eq, Source.feed_of_ok hnext happly]
    exact hrest

end Enumeration

namespace Source

/-- Given rows are enumerated over any database. -/
def enumerateRows (base : Database) (ts : List Tuple) :
    Enumeration Source.rows (Playback.ofRows ts) base ts where
  ahead playback rest := playback = ⟨ts, rest⟩
  reads _ _ := False
  start {db} _ := ⟨_, db, rfl, .refl, rfl⟩
  pull := by
    rintro _ rest db rfl _
    exact ⟨_, db, rfl, .refl, rfl, fun _ => id, fun _ _ _ _ => id⟩
  restart := by
    rintro _ rest db rfl _
    exact ⟨_, db, rfl, .refl, rfl⟩

end Source

namespace Predicate

/-- The tuples that satisfy the predicate, in order, unless one of them has no such field. -/
def select (predicate : Predicate) : List Tuple → Except StoreError (List Tuple)
  | [] => .ok []
  | t :: ts =>
    match predicate.holds t, predicate.select ts with
    | .error e, _ | _, .error e => .error e
    | .ok accepted, .ok rest => .ok (if accepted then t :: rest else rest)

theorem select_cons {predicate : Predicate} {t : Tuple} {ts rest : List Tuple}
    (h : predicate.select (t :: ts) = .ok rest) :
    (predicate.holds t = .ok true ∧ ∃ more, predicate.select ts = .ok more ∧ rest = t :: more) ∨
      predicate.holds t = .ok false ∧ predicate.select ts = .ok rest := by
  rw [select] at h
  cases hholds : predicate.holds t with
  | error e => simp [hholds] at h
  | ok accepted =>
    cases hselect : predicate.select ts with
    | error e => simp [hholds, hselect] at h
    | ok more =>
      rw [hholds, hselect] at h
      cases accepted <;> cases h
      · exact Or.inr ⟨rfl, rfl⟩
      · exact Or.inl ⟨rfl, more, rfl, rfl⟩

end Predicate

namespace Enumeration
variable {σ : Type} {source : Source σ} {init : σ} {base : Database} {ts : List Tuple}

theorem firstMatch_ok (e : Enumeration source init base ts) (predicate : Predicate) {s : σ}
    {below rest : List Tuple} {db : Database} (hs : e.ahead s below)
    (hselect : predicate.select below = .ok rest) (hkeeps : base.Keeps (e.reads s) db) :
    ∃ s' db' behind, source.firstMatch predicate.holds (.opened s, db) =
        .ok rest.head? (.opened s', db') ∧
      ReflTransGen Paging db db' ∧ e.ahead s' behind ∧ predicate.select behind = .ok rest.tail ∧
        (∀ id, e.reads s' id → e.reads s id) ∧ ∀ t ∈ rest.head?, t.Apart (e.reads s') := by
  induction below generalizing s db with
  | nil =>
    cases hselect
    obtain ⟨s', db', hnext, hpages, hs', hfewer, -⟩ := e.next_ok hs hkeeps
    refine ⟨s', db', [], ?_, hpages, hs', rfl, hfewer, fun t ht => by cases ht⟩
    rw [Source.firstMatch_eq, Source.tryNext, hnext]
    rfl
  | cons t below ih =>
    obtain ⟨middle, db₁, hnext, hpages, hmiddle, hfewer, hapart⟩ := e.next_ok hs hkeeps
    have hstart : source.firstMatch predicate.holds (.opened s, db) = _ :=
      source.firstMatch_eq predicate.holds _
    rw [Source.tryNext, hnext] at hstart
    simp only [List.head?_cons] at hstart
    rcases Predicate.select_cons hselect with ⟨hholds, more, hmore, rfl⟩ | ⟨hholds, hrest⟩
    · rw [hholds] at hstart
      exact ⟨middle, db₁, below, hstart, hpages, hmiddle, hmore, hfewer, hapart⟩
    · rw [hholds] at hstart
      obtain ⟨s', db', behind, hmatch, hpages', hs', hbehind, hfewer', hapart'⟩ :=
        ih hmiddle hrest ((hkeeps.paging hpages).mono hfewer)
      exact ⟨s', db', behind, hstart.trans hmatch, hpages.trans hpages', hs', hbehind,
        fun id hid => hfewer id (hfewer' id hid), hapart'⟩

/-- A filter enumerates the tuples that its predicate selects. -/
def filter (e : Enumeration source init base ts) {predicate : Predicate} {kept : List Tuple}
    (hselect : predicate.select ts = .ok kept) :
    Enumeration (source.filter predicate) { inner := init } base kept where
  ahead look rest := ∃ s below, look = .opened s ∧ e.ahead s below ∧ predicate.select below = .ok rest
  reads look := e.reads look.inner
  start := by
    intro db hkeeps
    obtain ⟨s, db', hopen, hpages, hs⟩ := e.open_ok hkeeps
    exact ⟨.opened s, db', hopen, hpages, s, ts, rfl, hs, hselect⟩
  pull := by
    rintro _ rest db ⟨s, below, rfl, hs, hbelow⟩ hkeeps
    obtain ⟨s', db', behind, hmatch, hpages, hs', hbehind, hrest⟩ :=
      e.firstMatch_ok predicate hs hbelow hkeeps
    exact ⟨.opened s', db', hmatch, hpages, ⟨s', behind, rfl, hs', hbehind⟩, hrest⟩
  restart := by
    rintro _ rest db ⟨s, below, rfl, hs, -⟩ hkeeps
    obtain ⟨s', db', hrewind, hpages, hs'⟩ := e.rewind_ok hs hkeeps
    exact ⟨.opened s', db', hrewind, hpages, s', ts, rfl, hs', hselect⟩

end Enumeration
end RowStore
