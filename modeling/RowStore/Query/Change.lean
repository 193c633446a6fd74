import RowStore.Query.Source

/-!
# Changes

A change applies an operation to every tuple of its child, the first time a row is asked for, and
yields one row with the number of tuples. A rewind makes the same row appear again and applies
nothing.
-/
namespace RowStore

structure ChangeState (σ : Type) where
  child : Lookahead σ
  count : Option Tuple := none
  emitted : Bool := false

namespace Source
variable {σ : Type}

/-- The schema of the one row: a count. -/
def countSchema : Schema := ⟨[{ type := .integer, name := some "count" }], by simp⟩

def countRow (n : Nat) : Tuple := { schema := countSchema, fields := [.int (Int32.ofNat n)] }

/-- Applies the operation and counts the tuple; the count must fit the row. -/
def countStep (apply : Tuple → Db Unit) (t : Tuple) : Run Nat Unit := fun (n, db) =>
  match apply t db with
  | .error e db => .error e (n, db)
  | .ok () db =>
    if n + 1 ≤ 2147483647 then .ok () (n + 1, db)
    else .error (.violation .counterOverflow) (n, db)

def startChange (child : Source σ) : Run (ChangeState σ) Unit := fun (s, db) =>
  match child.open (s.child, db) with
  | .error e (inner, db) => .error e ({ s with child := inner }, db)
  | .ok () (inner, db) => .ok () ({ child := inner }, db)

def pullChange (child : Source σ) (apply : Tuple → Db Unit) : Run (ChangeState σ) (Option Tuple) :=
  fun (s, db) =>
    if s.emitted then .ok none (s, db)
    else match s.count with
      | some row => .ok (some row) ({ s with emitted := true }, db)
      | none =>
        match child.forEach (countStep apply) ((s.child, 0), db) with
        | .error e ((inner, _), db) => .error e ({ s with child := inner }, db)
        | .ok () ((inner, n), db) =>
          .ok (some (countRow n)) ({ child := inner, count := some (countRow n), emitted := true }, db)

/-- The one row, until it is out. -/
def pendingChange (s : ChangeState σ) : Nat × Nat := (0, if s.emitted then 0 else 1)

theorem pendingChange_pull (child : Source σ) (apply : Tuple → Db Unit)
    {s s' : ChangeState σ × Database} {t : Tuple} (h : child.pullChange apply s = .ok (some t) s') :
    LessPending (pendingChange s'.1) (pendingChange s.1) := by
  obtain ⟨s, db⟩ := s
  simp only [pullChange] at h
  split at h
  · cases h
  · next hemitted =>
    have hone : pendingChange s = (0, 1) := by simp [pendingChange, hemitted]
    rw [hone]
    split at h
    · cases h
      exact Prod.Lex.right _ Nat.one_pos
    · split at h
      · cases h
      · cases h
        exact Prod.Lex.right _ Nat.one_pos

def change (child : Source σ) (apply : Tuple → Db Unit) : Source (ChangeState σ) where
  start := child.startChange
  pull := child.pullChange apply
  restart := fun (s, db) => .ok () ({ s with emitted := false }, db)
  stop := fun s => { child := child.close s.child }
  pending := pendingChange
  pending_pull := child.pendingChange_pull apply

end Source
end RowStore
