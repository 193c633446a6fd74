import RowStore.Query.Plan

/-!
# Operators under any demands

An open operator may be asked for its next row, whether it has one, or to go back to the first row,
in any order. A source yields a list when each pull takes the first of the tuples that are ahead. The
main statement says that an operator over such a source answers every demand from its position in
the list, whatever was looked at before.
-/
namespace RowStore

/-- What a user asks of an open operator. -/
inductive Demand where
  | next
  | hasNext
  | rewind
  deriving DecidableEq

inductive Answer where
  | row (t : Option Tuple)
  | more (answer : Bool)
  | done
  deriving DecidableEq

namespace Demand

/-- The demand asks for a row, or whether there is one. -/
def pulls : Demand → Bool
  | .next | .hasNext => true
  | .rewind => false

theorem rewind_or_pulls : ∀ demand : Demand, demand = .rewind ∨ demand.pulls = true
  | .next | .hasNext => Or.inr rfl
  | .rewind => Or.inl rfl

/-- The answer where this is what comes next. -/
def answerWith (t : Option Tuple) : Demand → Answer
  | .next => .row t
  | .hasNext => .more t.isSome
  | .rewind => .done

/-- The tuple that the operator goes on looking at. -/
def keeps (t : Option Tuple) : Demand → Option Tuple
  | .hasNext => t
  | .next | .rewind => none

theorem mem_of_keeps {t : Option Tuple} {demand : Demand} {row : Tuple} (h : row ∈ demand.keeps t) :
    row ∈ t := by
  cases demand with
  | hasNext => exact h
  | next | rewind => cases h

theorem mem_of_answerWith {t : Option Tuple} {demand : Demand} {row : Tuple}
    (h : demand.answerWith t = .row (some row)) : row ∈ t := by
  cases demand with
  | next => exact Answer.row.inj h
  | hasNext | rewind => cases h

/-- The answer from position `i` of the list; past its end there is no row. -/
def answerAt (ts : List Tuple) (i : Nat) : Demand → Answer
  | .next => .row ts[i]?
  | .hasNext => .more (decide (i < ts.length))
  | .rewind => .done

/-- The position after the demand. -/
def position (i : Nat) : Demand → Nat
  | .next => i + 1
  | .hasNext => i
  | .rewind => 0

/-- The answers from position `i` of the list. -/
def expected (ts : List Tuple) : Nat → List Demand → List Answer
  | _, [] => []
  | i, demand :: demands => demand.answerAt ts i :: expected ts (demand.position i) demands

end Demand

variable {σ : Type}

/-- The operator is open, and has the tuple it looked at and the tuples ahead of its source. -/
inductive Lookahead.Ahead (ahead : σ → List Tuple → Prop) : Lookahead σ → List Tuple → Prop
  | unseen {s : σ} {rest : List Tuple} (h : ahead s rest) : Ahead ahead ⟨s, true, none⟩ rest
  | peeked {s : σ} {t : Tuple} {rest : List Tuple} (h : ahead s rest) :
      Ahead ahead ⟨s, true, some t⟩ (t :: rest)

namespace Source

/-- Asks an operator over the source. -/
def respond (source : Source σ) : Demand → Run (Lookahead σ) Answer
  | .next => Answer.row <$> source.next
  | .hasNext => Answer.more <$> source.hasNext
  | .rewind => (fun _ => Answer.done) <$> source.rewind

/-- The answers to the demands in their order, up to the first error. -/
def respondAll (source : Source σ) : List Demand → Run (Lookahead σ) (List Answer)
  | [], x => .ok [] x
  | demand :: demands, x =>
    match source.respond demand x with
    | .error e x => .error e x
    | .ok answer x =>
      match source.respondAll demands x with
      | .error e x => .error e x
      | .ok answers x => .ok (answer :: answers) x

theorem respondAll_cons {source : Source σ} {demand : Demand} {demands : List Demand}
    {x y z : Lookahead σ × Database} {answer : Answer} {answers : List Answer}
    (hfirst : source.respond demand x = .ok answer y) (hrest : source.respondAll demands y = .ok answers z) :
    source.respondAll (demand :: demands) x = .ok (answer :: answers) z := by
  rw [respondAll, hfirst]
  dsimp only
  rw [hrest]

theorem respond_next {source : Source σ} {x y : Lookahead σ × Database} {t : Option Tuple}
    (h : source.next x = .ok t y) : source.respond .next x = .ok (.row t) y := by
  change EStateM.map Answer.row source.next x = _
  rw [EStateM.map, h]

theorem respond_hasNext {source : Source σ} {x y : Lookahead σ × Database} {more : Bool}
    (h : source.hasNext x = .ok more y) : source.respond .hasNext x = .ok (.more more) y := by
  change EStateM.map Answer.more source.hasNext x = _
  rw [EStateM.map, h]

theorem respond_rewind {source : Source σ} {x y : Lookahead σ × Database}
    (h : source.rewind x = .ok () y) : source.respond .rewind x = .ok .done y := by
  change EStateM.map (fun _ => Answer.done) source.rewind x = _
  rw [EStateM.map, h]

section
variable {source : Source σ} {demand : Demand} {s s' : σ} {db db' : Database} {e : Fault}

theorem respond_of_closed (source : Source σ) (demand : Demand) (s : σ) (peeked : Option Tuple)
    (db : Database) : source.respond demand (⟨s, false, peeked⟩, db) =
      .error (.error .operatorNotOpen) (⟨s, false, peeked⟩, db) := by
  cases demand <;> rfl

/-- A tuple that was looked at answers the demand. -/
theorem respond_of_peeked (hpulls : demand.pulls = true) (s : σ) (t : Tuple) (db : Database) :
    source.respond demand (⟨s, true, some t⟩, db) =
      .ok (demand.answerWith (some t)) (⟨s, true, demand.keeps (some t)⟩, db) := by
  cases demand with
  | next | hasNext => rfl
  | rewind => cases hpulls

/-- Otherwise a pull answers it. -/
theorem respond_of_pull (hpulls : demand.pulls = true) {t : Option Tuple}
    (h : source.pull (s, db) = .ok t (s', db')) :
    source.respond demand (⟨s, true, none⟩, db) =
      .ok (demand.answerWith t) (⟨s', true, demand.keeps t⟩, db') := by
  cases demand with
  | next => exact respond_next (by simp only [next, if_true, h]; rfl)
  | hasNext => exact respond_hasNext (by simp only [hasNext, if_true, h]; rfl)
  | rewind => cases hpulls

theorem respond_of_pull_error (hpulls : demand.pulls = true)
    (h : source.pull (s, db) = .error e (s', db')) :
    source.respond demand (⟨s, true, none⟩, db) = .error e (⟨s', true, none⟩, db') := by
  cases demand with
  | next =>
    change EStateM.map Answer.row source.next _ = _
    simp only [EStateM.map, next, if_true, h]
  | hasNext =>
    change EStateM.map Answer.more source.hasNext _ = _
    simp only [EStateM.map, hasNext, if_true, h]
  | rewind => cases hpulls

theorem respond_of_restart (peeked : Option Tuple) (h : source.restart (s, db) = .ok () (s', db')) :
    source.respond .rewind (⟨s, true, peeked⟩, db) = .ok .done (⟨s', true, none⟩, db') :=
  respond_rewind (by simp only [rewind, if_true, h])

theorem respond_of_restart_error (peeked : Option Tuple)
    (h : source.restart (s, db) = .error e (s', db')) :
    source.respond .rewind (⟨s, true, peeked⟩, db) = .error e (⟨s', true, none⟩, db') := by
  change EStateM.map (fun _ => Answer.done) source.rewind _ = _
  simp only [EStateM.map, rewind, if_true, h]

end

/-- Where a source has tuples ahead, a pull takes the first, and a restart puts the whole list
ahead. -/
structure Yields (source : Source σ) (ts : List Tuple) (ahead : σ → Database → List Tuple → Prop) :
    Prop where
  pull : ∀ {s db rest}, ahead s db rest →
    ∃ s' db', source.pull (s, db) = .ok rest.head? (s', db') ∧ ahead s' db' rest.tail
  restart : ∀ {s db rest}, ahead s db rest →
    ∃ s' db', source.restart (s, db) = .ok () (s', db') ∧ ahead s' db' ts

variable {source : Source σ} {ts : List Tuple} {ahead : σ → Database → List Tuple → Prop}

theorem Yields.next (h : source.Yields ts ahead) {look : Lookahead σ} {db : Database}
    {rest : List Tuple} (hlook : look.Ahead (ahead · db) rest) :
    ∃ look' db', source.next (look, db) = .ok rest.head? (look', db') ∧
      look'.Ahead (ahead · db') rest.tail := by
  cases hlook with
  | peeked hs => exact ⟨_, db, rfl, .unseen hs⟩
  | @unseen s _ hs =>
    obtain ⟨s', db', hpull, hs'⟩ := h.pull hs
    refine ⟨⟨s', true, none⟩, db', ?_, .unseen hs'⟩
    simp only [Source.next, if_true, hpull]

theorem Yields.hasNext (h : source.Yields ts ahead) {look : Lookahead σ} {db : Database}
    {rest : List Tuple} (hlook : look.Ahead (ahead · db) rest) :
    ∃ look' db', source.hasNext (look, db) = .ok (decide (0 < rest.length)) (look', db') ∧
      look'.Ahead (ahead · db') rest := by
  cases hlook with
  | @peeked s t rest hs => exact ⟨⟨s, true, some t⟩, db, by simp [Source.hasNext], .peeked hs⟩
  | @unseen s _ hs =>
    obtain ⟨s', db', hpull, hs'⟩ := h.pull hs
    cases rest with
    | nil => exact ⟨⟨s', true, none⟩, db', by simp [Source.hasNext, hpull], .unseen hs'⟩
    | cons t rest => exact ⟨⟨s', true, some t⟩, db', by simp [Source.hasNext, hpull], .peeked hs'⟩

theorem Yields.rewind (h : source.Yields ts ahead) {look : Lookahead σ} {db : Database}
    {rest : List Tuple} (hlook : look.Ahead (ahead · db) rest) :
    ∃ look' db', source.rewind (look, db) = .ok () (look', db') ∧ look'.Ahead (ahead · db') ts := by
  cases hlook with
  | unseen hs | peeked hs =>
    obtain ⟨s', db', hrestart, hs'⟩ := h.restart hs
    refine ⟨⟨s', true, none⟩, db', ?_, .unseen hs'⟩
    simp only [Source.rewind, if_true, hrestart]

theorem Yields.respond (h : source.Yields ts ahead) {look : Lookahead σ} {db : Database} {i : Nat}
    (hlook : look.Ahead (ahead · db) (ts.drop i)) (demand : Demand) :
    ∃ look' db', source.respond demand (look, db) = .ok (demand.answerAt ts i) (look', db') ∧
      look'.Ahead (ahead · db') (ts.drop (demand.position i)) := by
  cases demand with
  | next =>
    obtain ⟨look', db', hnext, hlook'⟩ := h.next hlook
    rw [List.head?_drop] at hnext
    rw [List.tail_drop] at hlook'
    exact ⟨look', db', respond_next hnext, hlook'⟩
  | hasNext =>
    obtain ⟨look', db', hnext, hlook'⟩ := h.hasNext hlook
    have hmore : decide (0 < (ts.drop i).length) = decide (i < ts.length) := by
      rw [List.length_drop, decide_eq_decide]
      omega
    rw [hmore] at hnext
    exact ⟨look', db', respond_hasNext hnext, hlook'⟩
  | rewind =>
    obtain ⟨look', db', hrewind, hlook'⟩ := h.rewind hlook
    exact ⟨look', db', respond_rewind hrewind, hlook'⟩

theorem Yields.respondAll (h : source.Yields ts ahead) (demands : List Demand) (i : Nat)
    {look : Lookahead σ} {db : Database} (hlook : look.Ahead (ahead · db) (ts.drop i)) :
    ∃ look' db' rest, source.respondAll demands (look, db) =
      .ok (Demand.expected ts i demands) (look', db') ∧ look'.Ahead (ahead · db') rest := by
  induction demands generalizing i look db with
  | nil => exact ⟨look, db, _, rfl, hlook⟩
  | cons demand demands ih =>
    obtain ⟨middle, db₁, hfirst, hmiddle⟩ := h.respond hlook demand
    obtain ⟨look', db', rest, hrest, hlook'⟩ := ih _ hmiddle
    exact ⟨look', db', rest, respondAll_cons hfirst hrest, hlook'⟩

end Source

namespace Operator

/-- Asks the operator of a plan. -/
def respondAll (demands : List Demand) : Run Operator (List Answer) :=
  run fun plan => plan.source.respondAll demands

theorem run_of_ok {α : Type} {operation : (plan : Plan) → Run (Lookahead plan.State) α} {plan : Plan}
    {look look' : Lookahead plan.State} {db db' : Database} {a : α}
    (h : operation plan (look, db) = .ok a (look', db')) :
    run operation (⟨plan, look⟩, db) = .ok a (⟨plan, look'⟩, db') := by
  simp only [run, h]

end Operator

end RowStore
