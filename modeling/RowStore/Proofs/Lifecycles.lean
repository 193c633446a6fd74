import Mathlib.Control.Monad.Basic
import RowStore.Proofs.Demands
import RowStore.Proofs.Faults
import RowStore.Proofs.Registrations

/-!
# Open and closed operators

An operator answers from the first open that succeeds until it is closed. An open that fails between
these leaves the operator open, and it goes on with the rows that it had before. This is said of two
states of an operator side by side, over one database: states that are alike give the same answers, and
none of them is refused.
-/
namespace RowStore
open Database

/-- Two runs over one database gave the same answer, or the same fault that is no refusal, and left
states that are alike. -/
inductive Tied {σ α : Type} (alike : σ → σ → Prop) :
    EStateM.Result Fault (σ × Database) α → EStateM.Result Fault (σ × Database) α → Prop
  | ok (a : α) {s s' : σ} (h : alike s s') (db : Database) : Tied alike (.ok a (s, db)) (.ok a (s', db))
  | error {e : Fault} (he : e.OfTables) {s s' : σ} (h : alike s s') (db : Database) :
      Tied alike (.error e (s, db)) (.error e (s', db))

/-- Both operators are open, have looked at the same tuple and have sources that are alike. -/
inductive Lookahead.Both {σ : Type} (alike : σ → σ → Prop) : Lookahead σ → Lookahead σ → Prop
  | mk {s s' : σ} (h : alike s s') (peeked : Option Tuple) : Both alike ⟨s, true, peeked⟩ ⟨s', true, peeked⟩

theorem Countdown.run_side_by_side {S R : Type} {left : S → Nat × Nat} {step : S → R ⊕ S} {stuck : S → R}
    (hless : ∀ s s', step s = .inr s' → LessPending (left s') (left s)) (beside : S → S → Prop)
    {tied : R → R → Prop}
    (hstep : ∀ s t, beside s t → (∃ r r', step s = .inl r ∧ step t = .inl r' ∧ tied r r') ∨
      ∃ s' t', step s = .inr s' ∧ step t = .inr t' ∧ beside s' t') {s t : S} (h : beside s t) :
    tied (run left step stuck s) (run left step stuck t) := by
  refine run_induction hless (motive := fun s r => ∀ t, beside s t → tied r (run left step stuck t))
    ?_ ?_ s t h
  · intro s r hlast t h
    rcases hstep s t h with ⟨r₁, r', hs, ht, htied⟩ | ⟨s', t', hs, _⟩
    · rw [hlast] at hs
      cases hs
      rw [run_eq hless, ht]
      exact htied
    · rw [hlast] at hs
      cases hs
  · intro s s₁ r hgoes ih t h
    rcases hstep s t h with ⟨r₁, r', hs, _⟩ | ⟨s', t', hs, ht, hbeside⟩
    · rw [hgoes] at hs
      cases hs
    · rw [hgoes] at hs
      cases hs
      rw [run_eq hless (s := t), ht]
      exact ih t' hbeside

namespace Source
variable {σ β : Type}

/-- Started sources that are alike answer alike. A start that fails leaves a state that is alike. -/
structure Serves (source : Source σ) (alike : σ → σ → Prop) : Prop where
  right : ∀ {s s'}, alike s s' → alike s' s'
  start : ∀ {x s db}, source.start x = .ok () (s, db) → alike s s
  start_error : ∀ {s s' db db' e}, alike s s → source.start (s, db) = .error e (s', db') → alike s s'
  pull : ∀ {s s'}, alike s s' → ∀ db, Tied alike (source.pull (s, db)) (source.pull (s', db))
  restart : ∀ {s s'}, alike s s' → ∀ db, Tied alike (source.restart (s, db)) (source.restart (s', db))

section
variable {source : Source σ} {alike : σ → σ → Prop} {look look' : Lookahead σ} {db db' : Database}

theorem Serves.right_both (h : source.Serves alike) (hlook : look.Both alike look') :
    look'.Both alike look' := by
  obtain ⟨hs, peeked⟩ := hlook
  exact .mk (h.right hs) peeked

theorem Serves.open (h : source.Serves alike) {x : Lookahead σ × Database}
    (hopen : source.open x = .ok () (look, db)) : look.Both alike look := by
  obtain ⟨before, start⟩ := x
  rw [Source.open] at hopen
  split at hopen
  · next hstart =>
    cases hopen
    exact .mk (h.start hstart) none
  · cases hopen

theorem Serves.open_error (h : source.Serves alike) (hlook : look.Both alike look) {e : Fault}
    (hopen : source.open (look, db) = .error e (look', db')) : look.Both alike look' := by
  obtain ⟨hs, peeked⟩ := hlook
  rw [Source.open] at hopen
  split at hopen
  · cases hopen
  · next hstart =>
    cases hopen
    exact .mk (h.start_error hs hstart) peeked

theorem Serves.next (h : source.Serves alike) (hlook : look.Both alike look') (db : Database) :
    Tied (Lookahead.Both alike) (source.next (look, db)) (source.next (look', db)) := by
  cases hlook with
  | @mk s s' hs peeked =>
    cases peeked with
    | some t => exact .ok (some t) (.mk hs none) db
    | none =>
      have hpull := h.pull hs db
      simp only [Source.next, if_true]
      generalize source.pull (s, db) = result, source.pull (s', db) = result' at hpull ⊢
      cases hpull with
      | ok t hs db => exact .ok t (.mk hs none) db
      | error he hs db => exact .error he (.mk hs none) db

theorem Serves.rewind (h : source.Serves alike) (hlook : look.Both alike look') (db : Database) :
    Tied (Lookahead.Both alike) (source.rewind (look, db)) (source.rewind (look', db)) := by
  cases hlook with
  | @mk s s' hs peeked =>
    have hrestart := h.restart hs db
    simp only [Source.rewind, if_true]
    generalize source.restart (s, db) = result, source.restart (s', db) = result' at hrestart ⊢
    cases hrestart with
    | ok _ hs db => exact .ok () (.mk hs none) db
    | error he hs db => exact .error he (.mk hs none) db

theorem Serves.respond (h : source.Serves alike) (hlook : look.Both alike look') (demand : Demand)
    (db : Database) :
    Tied (Lookahead.Both alike) (source.respond demand (look, db)) (source.respond demand (look', db)) := by
  cases hlook with
  | @mk s s' hs peeked =>
    rcases demand.rewind_or_pulls with rfl | hpulls
    · have hrestart := h.restart hs db
      generalize hrun : source.restart (s, db) = result, hrun' : source.restart (s', db) = result' at hrestart
      cases hrestart with
      | ok _ hs last =>
        rw [respond_of_restart peeked hrun, respond_of_restart peeked hrun']
        exact .ok _ (.mk hs none) last
      | error he hs last =>
        rw [respond_of_restart_error peeked hrun, respond_of_restart_error peeked hrun']
        exact .error he (.mk hs none) last
    · cases peeked with
      | some t =>
        rw [respond_of_peeked hpulls, respond_of_peeked hpulls]
        exact .ok _ (.mk hs _) db
      | none =>
        have hpull := h.pull hs db
        generalize hrun : source.pull (s, db) = result, hrun' : source.pull (s', db) = result' at hpull
        cases hpull with
        | ok t hs last =>
          rw [respond_of_pull hpulls hrun, respond_of_pull hpulls hrun']
          exact .ok _ (.mk hs _) last
        | error he hs last =>
          rw [respond_of_pull_error hpulls hrun, respond_of_pull_error hpulls hrun']
          exact .error he (.mk hs none) last

theorem Serves.outcome_respondAll (h : source.Serves alike) (demands : List Demand)
    (hlook : look.Both alike look') (db : Database) :
    outcome (source.respondAll demands (look, db)) = outcome (source.respondAll demands (look', db)) := by
  induction demands generalizing look look' db with
  | nil => rfl
  | cons demand demands ih =>
    have hfirst := h.respond hlook demand db
    rw [respondAll, respondAll]
    generalize source.respond demand (look, db) = result, source.respond demand (look', db) = result'
      at hfirst ⊢
    cases hfirst with
    | error he hs last => rfl
    | @ok answer middle middle' hs last =>
      have hrest := ih hs last
      dsimp only
      generalize source.respondAll demands (middle, last) = rest,
        source.respondAll demands (middle', last) = rest' at hrest ⊢
      cases rest <;> cases rest' <;> cases hrest <;> rfl

theorem Serves.firstMatch (h : source.Serves alike) {accepts : Tuple → Except StoreError Bool}
    (haccepts : ∀ t e, accepts t = .error e → (Fault.error e).OfTables) (hlook : look.Both alike look')
    (db : Database) :
    Tied (Lookahead.Both alike) (source.firstMatch accepts (look, db))
      (source.firstMatch accepts (look', db)) := by
  refine Countdown.run_side_by_side (fun _ _ => source.remaining_tryNext accepts)
    (fun x y => x.1.Both alike y.1 ∧ x.2 = y.2) ?_ ⟨hlook, rfl⟩
  rintro ⟨look, db⟩ ⟨look', _⟩ ⟨hlook, rfl⟩
  have hnext := h.next hlook db
  unfold tryNext
  generalize source.next (look, db) = first, source.next (look', db) = first' at hnext ⊢
  cases hnext with
  | error he hs last => exact Or.inl ⟨_, _, rfl, rfl, .error he hs last⟩
  | ok answer hs last =>
    cases answer with
    | none => exact Or.inl ⟨_, _, rfl, rfl, .ok none hs last⟩
    | some t =>
      dsimp only
      cases hholds : accepts t with
      | error e => exact Or.inl ⟨_, _, rfl, rfl, .error (haccepts t e hholds) hs last⟩
      | ok verdict =>
        cases verdict with
        | true => exact Or.inl ⟨_, _, rfl, rfl, .ok (some t) hs last⟩
        | false => exact Or.inr ⟨_, _, rfl, rfl, hs, rfl⟩

theorem Serves.forEach (h : source.Serves alike) {step : Tuple → Run β Unit}
    (hstep : ∀ t x e x', step t x = .error e x' → e.OfTables) (hlook : look.Both alike look') (b : β)
    (db : Database) :
    Tied (fun x y => x.1.Both alike y.1 ∧ x.2 = y.2) (source.forEach step ((look, b), db))
      (source.forEach step ((look', b), db)) := by
  refine Countdown.run_side_by_side (fun _ _ => source.remaining_feed step)
    (fun x y => x.1.1.Both alike y.1.1 ∧ x.1.2 = y.1.2 ∧ x.2 = y.2) ?_ ⟨hlook, rfl, rfl⟩
  rintro ⟨⟨look, b⟩, db⟩ ⟨⟨look', _⟩, _⟩ ⟨hlook, rfl, rfl⟩
  have hnext := h.next hlook db
  unfold feed
  generalize source.next (look, db) = first, source.next (look', db) = first' at hnext ⊢
  cases hnext with
  | error he hs last => exact Or.inl ⟨_, _, rfl, rfl, .error he ⟨hs, rfl⟩ last⟩
  | ok answer hs last =>
    cases answer with
    | none => exact Or.inl ⟨_, _, rfl, rfl, .ok () ⟨hs, rfl⟩ last⟩
    | some t =>
      dsimp only
      cases hrun : step t (b, last) with
      | error e x => exact Or.inl ⟨_, _, rfl, rfl, .error (hstep t _ e x hrun) ⟨hs, rfl⟩ x.2⟩
      | ok _ x => exact Or.inr ⟨_, _, rfl, rfl, hs, rfl, rfl⟩

theorem serves_rows : rows.Serves Eq := by
  constructor
  · rintro s _ rfl
    rfl
  · intros
    rfl
  · intro s s' db db' e _ hstart
    cases hstart
  · rintro s _ rfl db
    exact .ok _ rfl db
  · rintro s _ rfl db
    exact .ok () rfl db

theorem serves_scan (file : TableFile) (schema : Schema) : (scan file schema).Serves Eq := by
  constructor
  · rintro s _ rfl
    rfl
  · intros
    rfl
  · intro s s' db db' e _ hstart
    cases hstart
  · rintro s _ rfl db
    cases hpull : (scan file schema).pull (s, db) with
    | ok answer x => exact .ok answer rfl x.2
    | error e x =>
      refine .error ?_ rfl x.2
      change pullScan schema (s, db) = _ at hpull
      cases s with
      | none => cases hpull
      | some cursor =>
        simp only [pullScan] at hpull
        split at hpull
        · next hnext =>
          cases hpull
          exact (Cursor.ofPages_of_next hnext).ofTables
        · cases hpull
        · split at hpull
          · next hreset =>
            cases hpull
            exact Tuple.ofTables_of_resetSchema hreset
          · cases hpull
  · rintro s _ rfl db
    exact .ok () rfl db

theorem Serves.filter (h : source.Serves alike) (predicate : Predicate) :
    (source.filter predicate).Serves (Lookahead.Both alike) where
  right := h.right_both
  start := h.open
  start_error hlook hopen := h.open_error hlook hopen
  pull := h.firstMatch fun _ _ => Predicate.ofTables_of_holds
  restart := h.rewind

end
end Source

/-- The summaries have the same rows to play. -/
inductive SummaryState.SameResults {σ : Type} : SummaryState σ → SummaryState σ → Prop
  | mk {child child' : Lookahead σ} {groups groups' : Groups} (results : Option Playback) :
      SameResults ⟨child, groups, results⟩ ⟨child', groups', results⟩

/-- The changes have the same row, and children that are alike. -/
inductive ChangeState.Both {σ : Type} (alike : σ → σ → Prop) : ChangeState σ → ChangeState σ → Prop
  | mk {look look' : Lookahead σ} (h : look.Both alike look') (count : Option Tuple) (emitted : Bool) :
      Both alike ⟨look, count, emitted⟩ ⟨look', count, emitted⟩

namespace Source
variable {σ : Type} {source : Source σ} {alike : σ → σ → Prop}

theorem startSummary_error {aggregation : Aggregation} {s s' : SummaryState σ} {db db' : Database} {e : Fault}
    (h : source.startSummary aggregation (s, db) = .error e (s', db')) : s.SameResults s' := by
  rw [startSummary] at h
  split at h
  · cases h
    exact .mk s.results
  · split at h
    · cases h
      exact .mk s.results
    · split at h <;> cases h
      exact .mk s.results

/-- A summary reads its child when it is started only, so the child need not serve. -/
theorem serves_summary (source : Source σ) (aggregation : Aggregation) :
    (source.summary aggregation).Serves SummaryState.SameResults := by
  constructor
  case right =>
    rintro _ _ ⟨results⟩
    exact .mk results
  case start =>
    intro x s db _
    exact .mk s.results
  case start_error =>
    intro s s' db db' e _ hstart
    exact startSummary_error hstart
  case pull =>
    rintro _ _ ⟨results⟩ db
    cases results with
    | none => exact .ok none (.mk none) db
    | some playback => exact .ok playback.next.1 (.mk (some playback.next.2)) db
  case restart =>
    rintro _ _ ⟨results⟩ db
    exact .ok () (.mk (results.map Playback.rewind)) db

theorem ofTables_of_countStep {apply : Tuple → Db Unit} (happly : ∀ t, Raises Fault.OfTables (apply t))
    {t : Tuple} {x x' : Nat × Database} {e : Fault} (h : countStep apply t x = .error e x') : e.OfTables := by
  rw [countStep] at h
  split at h
  · next hrun =>
    cases h
    exact happly t _ _ _ hrun
  · split at h
    · cases h
    · cases h
      exact nofun

theorem Serves.startChange (h : source.Serves alike) {x : ChangeState σ × Database} {s : ChangeState σ}
    {db : Database} (hstart : source.startChange x = .ok () (s, db)) : ChangeState.Both alike s s := by
  rw [Source.startChange] at hstart
  split at hstart
  · cases hstart
  · next hopen =>
    cases hstart
    exact .mk (h.open hopen) none false

theorem Serves.startChange_error (h : source.Serves alike) {s s' : ChangeState σ} {db db' : Database}
    {e : Fault} (hs : ChangeState.Both alike s s) (hstart : source.startChange (s, db) = .error e (s', db')) :
    ChangeState.Both alike s s' := by
  obtain ⟨hlook, count, emitted⟩ := hs
  rw [Source.startChange] at hstart
  split at hstart
  · next hopen =>
    cases hstart
    exact .mk (h.open_error hlook hopen) count emitted
  · cases hstart

theorem Serves.pullChange (h : source.Serves alike) {apply : Tuple → Db Unit}
    (happly : ∀ t, Raises Fault.OfTables (apply t)) {s s' : ChangeState σ} (hs : ChangeState.Both alike s s')
    (db : Database) :
    Tied (ChangeState.Both alike) (source.pullChange apply (s, db)) (source.pullChange apply (s', db)) := by
  cases hs with
  | @mk look look' hlook count emitted =>
    unfold Source.pullChange
    cases emitted with
    | true => exact .ok none (.mk hlook count true) db
    | false =>
      cases count with
      | some row => exact .ok (some row) (.mk hlook (some row) true) db
      | none =>
        have hstep : ∀ t x e x', countStep apply t x = .error e x' → e.OfTables :=
          fun _ _ _ _ => ofTables_of_countStep happly
        have hloop := h.forEach hstep hlook 0 db
        simp only [Bool.false_eq_true, if_false]
        generalize source.forEach (countStep apply) ((look, 0), db) = result,
          source.forEach (countStep apply) ((look', 0), db) = result' at hloop ⊢
        cases hloop with
        | @ok _ last last' hsame db =>
          obtain ⟨inner, n⟩ := last
          obtain ⟨inner', _⟩ := last'
          obtain ⟨hinner, rfl⟩ := hsame
          exact .ok _ (.mk hinner (some (countRow n)) true) db
        | @error e he last last' hsame db =>
          exact .error he (.mk hsame.1 none false) db

theorem Serves.change (h : source.Serves alike) {apply : Tuple → Db Unit}
    (happly : ∀ t, Raises Fault.OfTables (apply t)) :
    (source.change apply).Serves (ChangeState.Both alike) where
  right := by
    rintro _ _ ⟨hlook, count, emitted⟩
    exact .mk (h.right_both hlook) count emitted
  start := h.startChange
  start_error hs hstart := h.startChange_error hs hstart
  pull := h.pullChange happly
  restart := by
    rintro _ _ ⟨hlook, count, emitted⟩ db
    exact .ok () (.mk hlook count false) db

end Source

theorem Plan.serves (plan : Plan) : ∃ alike, plan.source.Serves alike := by
  induction plan with
  | rows schema ts => exact ⟨_, Source.serves_rows⟩
  | scan file qualifier => exact ⟨_, Source.serves_scan file _⟩
  | filter predicate child ih =>
    obtain ⟨alike, hserves⟩ := ih
    exact ⟨_, hserves.filter predicate⟩
  | aggregate aggregation child ih => exact ⟨_, child.source.serves_summary aggregation⟩
  | insert txn table child ih =>
    obtain ⟨alike, hserves⟩ := ih
    exact ⟨_, hserves.change (raises_insertTuple txn table)⟩
  | delete txn child ih =>
    obtain ⟨alike, hserves⟩ := ih
    exact ⟨_, hserves.change (raises_deleteTuple txn)⟩

/-- What is done with an operator, and to its database in between. -/
inductive Action where
  | opens
  | closes
  | asks (demand : Demand)
  | changes (change : Database → Database)

/-- How a call of open or close ended. -/
inductive Transition where
  | opened
  | failed
  | closed
  deriving DecidableEq

/-- An operator with its database, and the ends of its opens and closes, the last one first. -/
structure Session (σ : Type) where
  look : Lookahead σ
  db : Database
  log : List Transition := []

namespace Session
variable {σ : Type}

/-- An open has succeeded, and only opens that failed came after it. -/
def IsOpen (session : Session σ) : Prop := session.log.find? (· ≠ .failed) = some .opened

/-- The last call of open or close is an open that succeeded. -/
def JustOpened (session : Session σ) : Prop := session.log.head? = some .opened

/-- The last call of open or close is an open that failed. -/
def JustFailed (session : Session σ) : Prop := session.log.head? = some .failed

/-- The operator is open since the last call, or since before an open that failed. -/
theorem isOpen_iff (session : Session σ) :
    session.IsOpen ↔ session.JustOpened ∨ session.JustFailed ∧ session.IsOpen := by
  obtain ⟨look, db, log⟩ := session
  cases log with
  | nil => simp [IsOpen, JustOpened, JustFailed]
  | cons last log => cases last <;> simp [IsOpen, JustOpened, JustFailed]

theorem not_justOpened_of_justFailed {session : Session σ} (h : session.JustFailed) :
    ¬ session.JustOpened := by
  rw [JustFailed] at h
  rw [JustOpened, h]
  exact nofun

end Session

namespace Source
variable {σ : Type}

theorem isOpen_of_open_error {source : Source σ} {look look' : Lookahead σ} {db db' : Database} {e : Fault}
    (h : source.open (look, db) = .error e (look', db')) : look'.isOpen = look.isOpen := by
  rw [Source.open] at h
  split at h <;> cases h
  rfl

theorem respond_of_isOpen_eq_false (source : Source σ) {look : Lookahead σ} (h : look.isOpen = false)
    (demand : Demand) (db : Database) :
    source.respond demand (look, db) = .error (.error .operatorNotOpen) (look, db) := by
  obtain ⟨s, isOpen, peeked⟩ := look
  cases h
  exact source.respond_of_closed demand s peeked db

theorem outcome_respondAll_of_closed (source : Source σ) {look look' : Lookahead σ}
    (h : look.isOpen = false) (h' : look'.isOpen = false) (demands : List Demand) (db : Database) :
    outcome (source.respondAll demands (look, db)) = outcome (source.respondAll demands (look', db)) := by
  cases demands with
  | nil => rfl
  | cons demand demands =>
    rw [respondAll, respondAll, source.respond_of_isOpen_eq_false h, source.respond_of_isOpen_eq_false h']
    rfl

/-- The session after the action. -/
def act (source : Source σ) (session : Session σ) : Action → Session σ
  | .opens =>
    match source.open (session.look, session.db) with
    | .ok () (look, db) => ⟨look, db, .opened :: session.log⟩
    | .error _ (look, db) => ⟨look, db, .failed :: session.log⟩
  | .closes => ⟨source.close session.look, session.db, .closed :: session.log⟩
  | .asks demand =>
    match source.respond demand (session.look, session.db) with
    | .ok _ (look, db) => ⟨look, db, session.log⟩
    | .error _ (look, db) => ⟨look, db, session.log⟩
  | .changes change => { session with db := change session.db }

/-- The session after the actions. -/
def actAll (source : Source σ) : List Action → Session σ → Session σ
  | [], session => session
  | action :: actions, session => source.actAll actions (source.act session action)

end Source

namespace Session
variable {σ : Type} {source : Source σ} {alike : σ → σ → Prop} {session : Session σ}

/-- The operator is open exactly when the log says so, and then its source has been started. -/
structure Tracks (alike : σ → σ → Prop) (session : Session σ) : Prop where
  started : session.IsOpen → session.look.Both alike session.look
  closed : ¬ session.IsOpen → session.look.isOpen = false

theorem Tracks.act (h : session.Tracks alike) (hserves : source.Serves alike) (action : Action) :
    (source.act session action).Tracks alike := by
  cases action with
  | opens =>
    rw [Source.act]
    cases hopen : source.open (session.look, session.db) with
    | ok _ x => exact ⟨fun _ => hserves.open hopen, fun hnot => absurd rfl hnot⟩
    | error e x =>
      refine ⟨fun hopened => ?_, fun hclosed => ?_⟩
      · exact hserves.right_both (hserves.open_error (h.started hopened) hopen)
      · rw [Source.isOpen_of_open_error hopen]
        exact h.closed hclosed
  | closes => exact ⟨nofun, fun _ => rfl⟩
  | asks demand =>
    rw [Source.act]
    by_cases hopened : session.IsOpen
    · have hanswer := hserves.respond (h.started hopened) demand session.db
      cases hrun : source.respond demand (session.look, session.db) with
      | ok answer x =>
        rw [hrun] at hanswer
        cases hanswer with
        | ok _ hlook _ => exact ⟨fun _ => hlook, fun hclosed => absurd hopened hclosed⟩
      | error e x =>
        rw [hrun] at hanswer
        cases hanswer with
        | error _ hlook _ => exact ⟨fun _ => hlook, fun hclosed => absurd hopened hclosed⟩
    · rw [source.respond_of_isOpen_eq_false (h.closed hopened)]
      exact ⟨fun hopen => absurd hopen hopened, fun _ => h.closed hopened⟩
  | changes change => exact ⟨h.started, h.closed⟩

theorem Tracks.actAll (h : session.Tracks alike) (hserves : source.Serves alike) (actions : List Action) :
    (source.actAll actions session).Tracks alike := by
  induction actions generalizing session with
  | nil => exact h
  | cons action actions ih => exact ih (h.act hserves action)

/-- The operator refuses a demand. -/
def Refuses (source : Source σ) (session : Session σ) (demand : Demand) : Prop :=
  ∃ x, source.respond demand (session.look, session.db) = .error (.error .operatorNotOpen) x

/-- How demands are answered in the states of a session. -/
structure Lawful (source : Source σ) (session : Session σ) : Prop where
  refuses : ∀ demand, session.Refuses source demand ↔ ¬ session.IsOpen
  unchanged : ∀ demand x, source.respond demand (session.look, session.db) =
    .error (.error .operatorNotOpen) x → x = (session.look, session.db)
  /-- To refuse unless the last call is an open that succeeded is what is done, but for one case. -/
  last_call : (∀ demand, session.Refuses source demand ↔ ¬ session.JustOpened) ↔
    ¬ (session.JustFailed ∧ session.IsOpen)
  /-- An open that fails changes no answer over any database. -/
  failed_open : ∀ {e look db}, source.open (session.look, session.db) = .error e (look, db) →
    ∀ demands db, outcome (source.respondAll demands (look, db)) =
      outcome (source.respondAll demands (session.look, db))

theorem Tracks.refuses_iff (h : session.Tracks alike) (hserves : source.Serves alike) (demand : Demand) :
    session.Refuses source demand ↔ ¬ session.IsOpen := by
  constructor
  · rintro ⟨x, hrefused⟩ hopened
    have hanswer := hserves.respond (h.started hopened) demand session.db
    rw [hrefused] at hanswer
    cases hanswer with
    | error he _ _ => exact he rfl
  · intro hclosed
    exact ⟨_, source.respond_of_isOpen_eq_false (h.closed hclosed) demand session.db⟩

theorem Tracks.lawful (h : session.Tracks alike) (hserves : source.Serves alike) :
    session.Lawful source := by
  constructor
  case refuses => exact h.refuses_iff hserves
  case unchanged =>
    intro demand x hrefused
    have hclosed := (h.refuses_iff hserves demand).mp ⟨x, hrefused⟩
    rw [source.respond_of_isOpen_eq_false (h.closed hclosed)] at hrefused
    cases hrefused
    rfl
  case last_call =>
    have hiff := session.isOpen_iff
    constructor
    · rintro hrule ⟨hfailed, hopened⟩
      refine (h.refuses_iff hserves .next).mp ((hrule .next).mpr ?_) hopened
      exact not_justOpened_of_justFailed hfailed
    · intro hexcept demand
      rw [h.refuses_iff hserves demand, hiff]
      simp [hexcept]
  case failed_open =>
    intro e look db hopen demands other
    by_cases hopened : session.IsOpen
    · have hlook := hserves.open_error (h.started hopened) hopen
      exact (hserves.outcome_respondAll demands hlook other).symm
    · have hlook := h.closed hopened
      exact source.outcome_respondAll_of_closed ((Source.isOpen_of_open_error hopen).trans hlook) hlook
        demands other

end Session

namespace Plan

/-- However the operator of a plan was opened, closed and asked, and whatever became of the database, it
refuses demands exactly when no open has succeeded since the last close. Where the last open has failed
after one that succeeded, it gives the answers that it would have given before. -/
theorem session_lawful (plan : Plan) (db : Database) (actions : List Action) :
    (plan.source.actAll actions { look := { inner := plan.initial }, db }).Lawful plan.source := by
  obtain ⟨alike, hserves⟩ := plan.serves
  have hstart : Session.Tracks alike { look := { inner := plan.initial }, db } := ⟨nofun, fun _ => rfl⟩
  exact (hstart.actAll hserves actions).lawful hserves

/-- A sum is opened again over one row more, which overflows. The next demand is not refused and gets the
sum of the first opening. -/
theorem stale_row_after_failed_open :
    let schema : Schema := ⟨[{ type := .integer, name := some "a" }], List.cons_ne_nil _ _⟩
    let summed : Schema := ⟨[{ type := .integer, name := some "sum(t.a)" }], List.cons_ne_nil _ _⟩
    let file : TableFile := ⟨0, ⟨"t.dat", 32⟩, schema, by decide, by decide⟩
    let insert (value : Int32) : Use := .call (.insert ⟨1⟩ file.id ⟨schema, [.int value], none⟩)
    let db := play [.create "t.dat" "t" schema "a", insert 2147483647]
      (onVolume { pageSize := 32, poolPages := 4 } {})
    let plan : Plan := .aggregate ⟨.sum, 0, none, summed⟩ (.scan file "t")
    let session := plan.source.actAll [.opens, .changes (insert 1).leaves, .opens]
      { look := { inner := plan.initial }, db }
    db.catalog.file file.id = .ok file ∧ (Plan.scan file "t").aggregated none 0 .sum = .ok plan ∧
      session.log = [.failed, .opened] ∧ ¬ session.JustOpened ∧ ¬ session.Refuses plan.source .next ∧
        outcome (plan.source.respond .next (session.look, session.db)) =
          .ok (.row (some ⟨summed, [.int 2147483647], none⟩)) := by
  intro schema summed file insert db plan session
  have hlog : session.log = [.failed, .opened] := by decide +kernel
  have hanswer : outcome (plan.source.respond .next (session.look, session.db)) =
      .ok (.row (some ⟨summed, [.int 2147483647], none⟩)) := by decide +kernel
  refine ⟨by decide +kernel, rfl, hlog, ?_, ?_, hanswer⟩
  · rw [Session.JustOpened, hlog]
    exact nofun
  · rintro ⟨x, hrefused⟩
    rw [hrefused] at hanswer
    cases hanswer

end Plan
end RowStore
