import RowStore.Proofs.Enumeration
import RowStore.Proofs.Lifecycles

/-!
# Rewind and reopen

A chain of filters over rows or over the scan of a file goes back to the first row when it is rewound, and
also when it is closed and opened again. These are different paths through every level of the chain, and
each of them has a lookahead, a position, buffered rows and a number of pages to reset. They end in one
state, which the plan and the database determine, from every state that an open chain can be in.
-/
namespace RowStore
open Database

/-- Whether it succeeds or fails, the run leaves a state with the property. -/
def Leaves {σ α : Type} (holds : σ → Prop) : EStateM.Result Fault (σ × Database) α → Prop
  | .ok _ x => holds x.1
  | .error _ x => holds x.1

/-- The operator is open, and its source runs. -/
def Lookahead.Runs {σ : Type} (runs : σ → Prop) (look : Lookahead σ) : Prop :=
  look.isOpen = true ∧ runs look.inner

/-- The source fits, and it runs if the operator is open. -/
def Lookahead.Fits {σ : Type} (fits runs : σ → Prop) (look : Lookahead σ) : Prop :=
  fits look.inner ∧ (look.isOpen = true → runs look.inner)

namespace Source
variable {σ : Type}

/-- A start and a restart lead to one state, which depends on the database only: a start does so from all
states that fit, and a restart from those that run. Pulls keep a source running. -/
structure Renews (source : Source σ) (fits runs : σ → Prop) (renewed : Database → σ) : Prop where
  start : ∀ {s}, fits s → ∀ db, source.start (s, db) = .ok () (renewed db, db)
  restart : ∀ {s}, runs s → ∀ db, source.restart (s, db) = .ok () (renewed db, db)
  pull : ∀ {s}, runs s → ∀ db, Leaves runs (source.pull (s, db))
  stop : ∀ {s}, fits s → fits (source.stop s)
  running : ∀ db, runs (renewed db)
  fits_of_runs : ∀ {s}, runs s → fits s

variable {source : Source σ} {fits runs : σ → Prop} {renewed : Database → σ} {look : Lookahead σ}

theorem Renews.open (h : source.Renews fits runs renewed) (hlook : look.Fits fits runs) (db : Database) :
    source.open (look, db) = .ok () (⟨renewed db, true, none⟩, db) := by
  rw [Source.open]
  simp only [h.start hlook.1 db]

theorem Renews.rewind (h : source.Renews fits runs renewed) (hlook : look.Runs runs) (db : Database) :
    source.rewind (look, db) = .ok () (⟨renewed db, true, none⟩, db) := by
  obtain ⟨hopen, hruns⟩ := hlook
  simp only [Source.rewind, hopen, if_true, h.restart hruns db]

theorem Renews.fits_close (h : source.Renews fits runs renewed) (hlook : look.Fits fits runs) :
    (source.close look).Fits fits runs := ⟨h.stop hlook.1, nofun⟩

theorem Renews.runs_renewed (h : source.Renews fits runs renewed) (db : Database) :
    (⟨renewed db, true, none⟩ : Lookahead σ).Runs runs := ⟨rfl, h.running db⟩

theorem Renews.fits_of_runs_look (h : source.Renews fits runs renewed) (hlook : look.Runs runs) :
    look.Fits fits runs := ⟨h.fits_of_runs hlook.2, fun _ => hlook.2⟩

/-- An open operator goes on running, whatever it is asked. -/
theorem Renews.respond (h : source.Renews fits runs renewed) (hlook : look.Runs runs) (demand : Demand)
    (db : Database) : Leaves (Lookahead.Runs runs) (source.respond demand (look, db)) := by
  obtain ⟨s, isOpen, peeked⟩ := look
  obtain ⟨hopen, hruns⟩ := hlook
  cases hopen
  rcases demand.rewind_or_pulls with rfl | hpulls
  · rw [respond_of_restart peeked (h.restart hruns db)]
    exact h.runs_renewed db
  · cases peeked with
    | some t =>
      rw [respond_of_peeked hpulls]
      exact ⟨rfl, hruns⟩
    | none =>
      have hpull := h.pull hruns db
      cases hrun : source.pull (s, db) with
      | ok t x =>
        rw [hrun] at hpull
        rw [respond_of_pull hpulls hrun]
        exact ⟨rfl, hpull⟩
      | error e x =>
        rw [hrun] at hpull
        rw [respond_of_pull_error hpulls hrun]
        exact ⟨rfl, hpull⟩

theorem Renews.next (h : source.Renews fits runs renewed) (hlook : look.Runs runs) (db : Database) :
    Leaves (Lookahead.Runs runs) (source.next (look, db)) := by
  obtain ⟨s, isOpen, peeked⟩ := look
  obtain ⟨hopen, hruns⟩ := hlook
  cases hopen
  cases peeked with
  | some t => exact ⟨rfl, hruns⟩
  | none =>
    have hpull := h.pull hruns db
    simp only [Source.next, if_true]
    cases hrun : source.pull (s, db) <;> rw [hrun] at hpull <;> exact ⟨rfl, hpull⟩

theorem Renews.firstMatch (h : source.Renews fits runs renewed) (hlook : look.Runs runs)
    (accepts : Tuple → Except StoreError Bool) (db : Database) :
    Leaves (Lookahead.Runs runs) (source.firstMatch accepts (look, db)) := by
  refine source.firstMatch_rule accepts (fun x (hlook : x.1.Runs runs) => ?_) hlook
  obtain ⟨look, db⟩ := x
  have hnext := h.next hlook db
  rw [tryNext]
  cases hrun : source.next (look, db) with
  | error e x =>
    rw [hrun] at hnext
    exact hnext
  | ok t x =>
    rw [hrun] at hnext
    cases t with
    | none => exact hnext
    | some t =>
      dsimp only
      split <;> exact hnext

theorem Renews.filter (h : source.Renews fits runs renewed) (predicate : Predicate) :
    (source.filter predicate).Renews (Lookahead.Fits fits runs) (Lookahead.Runs runs)
      (fun db => ⟨renewed db, true, none⟩) where
  start hlook db := h.open hlook db
  restart hlook db := h.rewind hlook db
  pull hlook db := h.firstMatch hlook predicate.holds db
  stop := h.fits_close
  running := h.runs_renewed
  fits_of_runs := h.fits_of_runs_look

theorem renews_rows (ts : List Tuple) :
    rows.Renews (fun playback => playback.rows = ts) (fun playback => playback.rows = ts)
      (fun _ => Playback.ofRows ts) where
  start := by
    rintro s rfl db
    rfl
  restart := by
    rintro s rfl db
    rfl
  pull hrows _ := hrows
  stop hrows := hrows
  running _ := rfl
  fits_of_runs hrows := hrows

end Source

theorem Cursor.file_of_advance (file : TableFile) (page left : Nat) (db : Database) :
    Leaves (fun cursor => cursor.file = file) (advance file page left db) := by
  induction left generalizing page db with
  | zero => rfl
  | succ left ih =>
    rw [advance]
    cases fetch ⟨file.id, UInt32.ofNat page⟩ db with
    | error e db' => rfl
    | ok frame db' =>
      dsimp only
      cases frame.page.tuples with
      | nil => exact ih (page + 1) db'
      | cons t ts => rfl

theorem Cursor.file_of_next (cursor : Cursor) (db : Database) :
    Leaves (fun cursor' => cursor'.file = cursor.file) (next (cursor, db)) := by
  obtain ⟨file, page, left, buffered⟩ := cursor
  cases buffered with
  | nil => exact file_of_advance file page left db
  | cons t ts => rfl

namespace Source

theorem renews_scan (file : TableFile) (schema : Schema) :
    (scan file schema).Renews (fun _ => True) (fun s => s.map Cursor.file = some file)
      (fun db => some (Cursor.start file db.volume)) where
  start _ _ := rfl
  restart := by
    intro s hs db
    obtain ⟨cursor, rfl, rfl⟩ := Option.map_eq_some_iff.mp hs
    rfl
  pull := by
    intro s hs db
    obtain ⟨cursor, rfl, rfl⟩ := Option.map_eq_some_iff.mp hs
    have hnext := cursor.file_of_next db
    change Leaves _ (pullScan schema (some cursor, db))
    rw [pullScan]
    cases hrun : Cursor.next (cursor, db) with
    | error e x =>
      rw [hrun] at hnext
      exact congrArg some hnext
    | ok t x =>
      rw [hrun] at hnext
      cases t with
      | none => exact congrArg some hnext
      | some t =>
        dsimp only
        cases t.resetSchema schema <;> exact congrArg some hnext
  stop _ := trivial
  running _ := rfl
  fits_of_runs _ := trivial

end Source
namespace Session
variable {σ : Type} {source : Source σ} {fits runs : σ → Prop} {renewed : Database → σ} {session : Session σ}

/-- The operator fits and runs where the log says that it is open. -/
structure Keeps (fits runs : σ → Prop) (session : Session σ) : Prop where
  fits : session.look.Fits fits runs
  isOpen : session.IsOpen → session.look.isOpen = true

theorem Keeps.runs_look (h : session.Keeps fits runs) (hopen : session.IsOpen) : session.look.Runs runs :=
  ⟨h.isOpen hopen, h.fits.2 (h.isOpen hopen)⟩

theorem act_opens (h : source.Renews fits runs renewed) (hsession : session.look.Fits fits runs) :
    source.act session .opens =
      ⟨⟨renewed session.db, true, none⟩, session.db, .opened :: session.log⟩ := by
  rw [Source.act]
  simp only [h.open hsession session.db]

theorem act_rewind (h : source.Renews fits runs renewed) (hsession : session.look.Runs runs) :
    source.act session (.asks .rewind) =
      { session with look := ⟨renewed session.db, true, none⟩ } := by
  rw [Source.act]
  simp only [Source.respond_rewind (h.rewind hsession session.db)]

theorem Keeps.act (h : session.Keeps fits runs) (hrenews : source.Renews fits runs renewed)
    (action : Action) : (source.act session action).Keeps fits runs := by
  cases action with
  | opens =>
    rw [act_opens hrenews h.fits]
    exact ⟨hrenews.fits_of_runs_look (hrenews.runs_renewed session.db), fun _ => rfl⟩
  | closes => exact ⟨hrenews.fits_close h.fits, nofun⟩
  | asks demand =>
    rw [Source.act]
    cases hlook : session.look.isOpen with
    | false =>
      rw [source.respond_of_isOpen_eq_false hlook]
      exact h
    | true =>
      have hanswer := hrenews.respond ⟨hlook, h.fits.2 hlook⟩ demand session.db
      cases hrun : source.respond demand (session.look, session.db) with
      | ok answer x =>
        rw [hrun] at hanswer
        exact ⟨hrenews.fits_of_runs_look hanswer, fun _ => hanswer.1⟩
      | error e x =>
        rw [hrun] at hanswer
        exact ⟨hrenews.fits_of_runs_look hanswer, fun _ => hanswer.1⟩
  | changes change => exact ⟨h.fits, h.isOpen⟩

theorem Keeps.actAll (h : session.Keeps fits runs) (hrenews : source.Renews fits runs renewed)
    (actions : List Action) : (source.actAll actions session).Keeps fits runs := by
  induction actions generalizing session with
  | nil => exact h
  | cons action actions ih => exact ih (h.act hrenews action)

end Session

namespace Source
variable {σ : Type}

/-- What the user hears of an action: the end of an open or the answer to a demand. -/
def reply (source : Source σ) (session : Session σ) : Action → List (Except Fault Answer)
  | .opens =>
    match source.open (session.look, session.db) with
    | .ok () _ => [.ok .done]
    | .error e _ => [.error e]
  | .asks demand => [outcome (source.respond demand (session.look, session.db))]
  | .closes | .changes _ => []

/-- What the user hears of the actions, in their order and past the faults. -/
def replies (source : Source σ) : List Action → Session σ → List (Except Fault Answer)
  | [], _ => []
  | action :: actions, session =>
    source.reply session action ++ source.replies actions (source.act session action)

theorem replies_log (source : Source σ) (actions : List Action) (look : Lookahead σ) (db : Database)
    (log log' : List Transition) :
    source.replies actions ⟨look, db, log⟩ = source.replies actions ⟨look, db, log'⟩ := by
  induction actions generalizing look db log log' with
  | nil => rfl
  | cons action actions ih =>
    cases action with
    | opens =>
      simp only [replies, act, reply]
      cases source.open (look, db) <;> exact congrArg _ (ih ..)
    | closes => exact ih ..
    | asks demand =>
      simp only [replies, act, reply]
      cases source.respond demand (look, db) <;> exact congrArg _ (ih ..)
    | changes change => exact ih ..

end Source

namespace Plan

/-- The plan passes given rows or the scan of a file through filters. -/
def FilterChain : Plan → Prop
  | .rows _ _ | .scan _ _ => True
  | .filter _ child => child.FilterChain
  | .aggregate _ _ | .insert _ _ _ | .delete _ _ => False

/-- The chain stands before its first row: given rows are all ahead, a cursor is before the first of the
pages that the file has now, and no filter has looked at a row. -/
inductive AtFirst (db : Database) : (plan : Plan) → plan.State → Prop
  | rows (schema : Schema) (ts : List Tuple) : AtFirst db (.rows schema ts) (Playback.ofRows ts)
  | scan (file : TableFile) (qualifier : String) :
      AtFirst db (.scan file qualifier) (some (Cursor.start file db.volume))
  | filter (predicate : Predicate) {child : Plan} {s : child.State} (below : AtFirst db child s) :
      AtFirst db (.filter predicate child) (⟨s, true, none⟩ : Lookahead child.State)

theorem FilterChain.renews {plan : Plan} (h : plan.FilterChain) : ∃ fits runs renewed,
    plan.source.Renews fits runs renewed ∧ fits plan.initial ∧ ∀ db, plan.AtFirst db (renewed db) := by
  induction plan with
  | rows schema ts => exact ⟨_, _, _, Source.renews_rows ts, rfl, fun _ => .rows schema ts⟩
  | scan file qualifier =>
    exact ⟨_, _, _, Source.renews_scan file _, trivial, fun _ => .scan file qualifier⟩
  | filter predicate child ih =>
    obtain ⟨fits, runs, renewed, hrenews, hinitial, hfirst⟩ := ih h
    exact ⟨_, _, _, hrenews.filter predicate, ⟨hinitial, nofun⟩, fun db => .filter predicate (hfirst db)⟩
  | aggregate _ _ _ | insert _ _ _ _ | delete _ _ _ => exact h.elim

/-- However the operator of a chain was opened, closed and asked, and whatever became of the database: while
it is open, a rewind leads to the state that a close and an open lead to. The chain stands before its first
row of the database of this moment then, and no tuple that was looked at is left. So all that is done
afterwards gets the same answers. -/
theorem rewind_eq_reopen {plan : Plan} (hchain : plan.FilterChain) (db : Database) (actions : List Action) :
    let session := plan.source.actAll actions { look := { inner := plan.initial }, db }
    session.IsOpen → ∃ first, plan.AtFirst session.db first ∧
      plan.source.act session (.asks .rewind) = { session with look := ⟨first, true, none⟩ } ∧
      plan.source.actAll [.closes, .opens] session =
        ⟨⟨first, true, none⟩, session.db, .opened :: .closed :: session.log⟩ ∧
      ∀ later, plan.source.replies (.asks .rewind :: later) session =
        plan.source.replies (.closes :: .opens :: later) session := by
  intro session hopen
  obtain ⟨fits, runs, renewed, hrenews, hinitial, hfirst⟩ := hchain.renews
  have hstart : Session.Keeps fits runs { look := { inner := plan.initial }, db } :=
    ⟨⟨hinitial, nofun⟩, nofun⟩
  have hkeeps : session.Keeps fits runs := hstart.actAll hrenews actions
  have hruns := hkeeps.runs_look hopen
  have hclosed := hrenews.fits_close hkeeps.fits
  have hrewind := Session.act_rewind hrenews hruns
  have hreopen : plan.source.act (plan.source.act session .closes) .opens =
      ⟨⟨renewed session.db, true, none⟩, session.db, .opened :: .closed :: session.log⟩ :=
    Session.act_opens hrenews hclosed
  refine ⟨renewed session.db, hfirst session.db, hrewind, hreopen, fun later => ?_⟩
  have hheard : plan.source.reply session (.asks .rewind) =
      plan.source.reply (plan.source.act session .closes) .opens := by
    simp only [Source.reply, Source.act, Source.respond_rewind (hrenews.rewind hruns session.db),
      hrenews.open hclosed session.db]
    rfl
  calc plan.source.replies (.asks .rewind :: later) session
      = plan.source.reply session (.asks .rewind) ++
          plan.source.replies later (plan.source.act session (.asks .rewind)) := rfl
    _ = plan.source.reply (plan.source.act session .closes) .opens ++
          plan.source.replies later (plan.source.act (plan.source.act session .closes) .opens) := by
        rw [hheard, hrewind, hreopen]
        exact congrArg _ (Source.replies_log ..)
    _ = plan.source.replies (.closes :: .opens :: later) session := rfl

/-- A filter has looked at a row when the file gets one page more. -/
theorem rewind_eq_reopen_after_growth :
    let schema : Schema := ⟨[{ type := .integer, name := some "a" }], List.cons_ne_nil _ _⟩
    let file : TableFile := ⟨0, ⟨"t.dat", 8⟩, schema, by decide, by decide⟩
    let insert (value : Int32) : Use := .call (.insert ⟨1⟩ file.id ⟨schema, [.int value], none⟩)
    let db := play [.create "t.dat" "t" schema "a", insert 1, insert 2]
      (onVolume { pageSize := 8, poolPages := 1 } {})
    let plan : Plan := .filter ⟨0, .ge, .int 2⟩ (.scan file "t")
    let session := plan.source.actAll [.opens, .asks .hasNext, .changes (insert 3).leaves]
      { look := { inner := plan.initial }, db }
    plan.FilterChain ∧ session.IsOpen ∧ session.look.peeked.map Tuple.fields = some [.int 2] ∧
      file.numPages db.volume = 2 ∧ file.numPages session.db.volume = 3 ∧
      ∃ first, plan.AtFirst session.db first ∧
        plan.source.act session (.asks .rewind) = { session with look := ⟨first, true, none⟩ } ∧
        plan.source.actAll [.closes, .opens] session =
          ⟨⟨first, true, none⟩, session.db, .opened :: .closed :: session.log⟩ ∧
        ∀ later, plan.source.replies (.asks .rewind :: later) session =
          plan.source.replies (.closes :: .opens :: later) session := by
  intro schema file insert db plan session
  have hchain : plan.FilterChain := trivial
  have hopen : session.IsOpen := by
    rw [Session.IsOpen, show session.log = [.opened] by decide +kernel]
    rfl
  exact ⟨hchain, hopen, by decide +kernel, by decide +kernel, by decide +kernel,
    rewind_eq_reopen hchain db [.opens, .asks .hasNext, .changes (insert 3).leaves] hopen⟩

end Plan
end RowStore
