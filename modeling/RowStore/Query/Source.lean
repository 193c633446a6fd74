import RowStore.Database.Cursor
import RowStore.Query.Countdown

/-!
# Sources and operators

A source yields tuples one at a time; an operator is a source with a lifecycle and one tuple of
lookahead. An operator answers only while it is open, looking ahead never loses a tuple, and a
rewind drops the tuple looked at. Every yielded tuple lowers the source's measure `pending`, so the
loops over an operator end.
-/
namespace RowStore

structure Source (σ : Type) where
  start : Run σ Unit
  /-- The next tuple, or none at the end. -/
  pull : Run σ (Option Tuple)
  /-- Goes back before the first tuple. -/
  restart : Run σ Unit
  stop : σ → σ
  /-- What is left to yield, counted so that it falls with every tuple. -/
  pending : σ → Nat × Nat
  pending_pull : ∀ {s s' : σ × Database} {t : Tuple}, pull s = .ok (some t) s' →
    LessPending (pending s'.1) (pending s.1)

/-- The state of an operator: that of its source, whether it is open, and the tuple looked at. -/
structure Lookahead (σ : Type) where
  inner : σ
  isOpen : Bool := false
  peeked : Option Tuple := none

/-- Starts the source; an operator whose source cannot start stays as open as it was. -/
def Source.open {σ : Type} (source : Source σ) : Run (Lookahead σ) Unit := fun (s, db) =>
  match source.start (s.inner, db) with
  | .ok () (inner, db) => .ok () ({ inner, isOpen := true }, db)
  | .error e (inner, db) => .error e ({ s with inner }, db)

namespace Source
variable {σ : Type}

def next (source : Source σ) : Run (Lookahead σ) (Option Tuple) := fun (s, db) =>
  if s.isOpen then
    match s.peeked with
    | some t => .ok (some t) ({ s with peeked := none }, db)
    | none =>
      match source.pull (s.inner, db) with
      | .ok t (inner, db) => .ok t ({ s with inner }, db)
      | .error e (inner, db) => .error e ({ s with inner }, db)
  else .error (.error .operatorNotOpen) (s, db)

/-- Looks at the next tuple without taking it. -/
def hasNext (source : Source σ) : Run (Lookahead σ) Bool := fun (s, db) =>
  if s.isOpen then
    match s.peeked with
    | some _ => .ok true (s, db)
    | none =>
      match source.pull (s.inner, db) with
      | .ok t (inner, db) => .ok t.isSome ({ s with inner, peeked := t }, db)
      | .error e (inner, db) => .error e ({ s with inner }, db)
  else .error (.error .operatorNotOpen) (s, db)

def rewind (source : Source σ) : Run (Lookahead σ) Unit := fun (s, db) =>
  if s.isOpen then
    match source.restart (s.inner, db) with
    | .ok () (inner, db) => .ok () ({ inner, isOpen := true }, db)
    | .error e (inner, db) => .error e ({ inner, isOpen := true }, db)
  else .error (.error .operatorNotOpen) (s, db)

def close (source : Source σ) (s : Lookahead σ) : Lookahead σ := { inner := source.stop s.inner }

/-- The work left to the operator: that of its source, and the tuple looked at. -/
def remaining (source : Source σ) (s : Lookahead σ) : Nat × Nat :=
  ((source.pending s.inner).1, (source.pending s.inner).2 + if s.peeked.isSome then 1 else 0)

theorem remaining_next (source : Source σ) {s s' : Lookahead σ × Database} {t : Tuple}
    (h : source.next s = .ok (some t) s') :
    LessPending (source.remaining s'.1) (source.remaining s.1) := by
  obtain ⟨s, db⟩ := s
  simp only [next] at h
  split at h
  · split at h
    · next u hu =>
      cases h
      simp only [remaining, hu]
      exact Prod.Lex.right _ (Nat.lt_succ_self _)
    · next hu =>
      split at h
      · next hpull =>
        cases h
        have hless := source.pending_pull hpull
        simp only [remaining, hu]
        exact hless
      · cases h
  · cases h

/-- One step of `forEach`: takes a tuple and feeds it to the step. -/
def feed {β : Type} (source : Source σ) (step : Tuple → Run β Unit)
    (s : (Lookahead σ × β) × Database) :
    EStateM.Result Fault ((Lookahead σ × β) × Database) Unit ⊕ (Lookahead σ × β) × Database :=
  match source.next (s.1.1, s.2) with
  | .error e (look, db) => .inl (.error e ((look, s.1.2), db))
  | .ok none (look, db) => .inl (.ok () ((look, s.1.2), db))
  | .ok (some t) (look, db) =>
    match step t (s.1.2, db) with
    | .error e (b, db) => .inl (.error e ((look, b), db))
    | .ok () (b, db) => .inr ((look, b), db)

/-- Takes all tuples that the operator has left, feeding each to the step, up to the first error. -/
def forEach {β : Type} (source : Source σ) (step : Tuple → Run β Unit) :
    Run (Lookahead σ × β) Unit :=
  Countdown.run (fun s => source.remaining s.1.1) (source.feed step) (.ok ())

/-- One step of `firstMatch`: takes a tuple and tests it. -/
def tryNext (source : Source σ) (accepts : Tuple → Except StoreError Bool)
    (s : Lookahead σ × Database) :
    EStateM.Result Fault (Lookahead σ × Database) (Option Tuple) ⊕ Lookahead σ × Database :=
  match source.next s with
  | .error e s => .inl (.error e s)
  | .ok none s => .inl (.ok none s)
  | .ok (some t) s =>
    match accepts t with
    | .error e => .inl (.error (.error e) s)
    | .ok true => .inl (.ok (some t) s)
    | .ok false => .inr s

/-- Takes tuples up to the first that the predicate accepts. -/
def firstMatch (source : Source σ) (accepts : Tuple → Except StoreError Bool) :
    Run (Lookahead σ) (Option Tuple) :=
  Countdown.run (fun s => source.remaining s.1) (source.tryNext accepts) (.ok none)

theorem remaining_feed {β : Type} (source : Source σ) (step : Tuple → Run β Unit)
    {s s' : (Lookahead σ × β) × Database} (h : source.feed step s = .inr s') :
    LessPending (source.remaining s'.1.1) (source.remaining s.1.1) := by
  unfold feed at h
  split at h
  · cases h
  · cases h
  · next hnext =>
    split at h
    · cases h
    · cases h
      exact source.remaining_next hnext

theorem forEach_eq {β : Type} (source : Source σ) (step : Tuple → Run β Unit)
    (s : (Lookahead σ × β) × Database) :
    source.forEach step s =
      match source.feed step s with
      | .inl r => r
      | .inr s' => source.forEach step s' := by
  unfold forEach
  rw [Countdown.run_eq fun _ _ => source.remaining_feed step]
  cases source.feed step s <;> rfl

theorem remaining_tryNext (source : Source σ) (accepts : Tuple → Except StoreError Bool)
    {s s' : Lookahead σ × Database} (h : source.tryNext accepts s = .inr s') :
    LessPending (source.remaining s'.1) (source.remaining s.1) := by
  unfold tryNext at h
  split at h
  · cases h
  · cases h
  · next hnext =>
    split at h
    · cases h
    · cases h
    · cases h
      exact source.remaining_next hnext

theorem firstMatch_eq (source : Source σ) (accepts : Tuple → Except StoreError Bool)
    (s : Lookahead σ × Database) :
    source.firstMatch accepts s =
      match source.tryNext accepts s with
      | .inl r => r
      | .inr s' => source.firstMatch accepts s' := by
  unfold firstMatch
  rw [Countdown.run_eq fun _ _ => source.remaining_tryNext accepts]
  cases source.tryNext accepts s <;> rfl

theorem remaining_firstMatch (source : Source σ) (accepts : Tuple → Except StoreError Bool)
    {s s' : Lookahead σ × Database} {t : Tuple}
    (h : source.firstMatch accepts s = .ok (some t) s') :
    LessPending (source.remaining s'.1) (source.remaining s.1) := by
  refine Countdown.run_induction (fun _ _ => source.remaining_tryNext accepts)
    (motive := fun s r => ∀ t s', r = .ok (some t) s' →
      LessPending (source.remaining s'.1) (source.remaining s.1))
    (fun s r hs t s' hr => by
      subst hr
      unfold tryNext at hs
      split at hs
      · cases hs
      · cases hs
      · next hnext =>
        split at hs
        · cases hs
        · cases hs
          exact source.remaining_next hnext
        · cases hs)
    (fun s s' r hs ih t s'' hr => lessPending_trans (ih t s'' hr) (source.remaining_tryNext accepts hs))
    s t s' h

end Source
end RowStore
