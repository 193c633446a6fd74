import RowStore.Query.Aggregation
import RowStore.Query.Playback
import RowStore.Query.Source

/-!
# Summaries

A summary reads its whole child when it is opened and then plays the rows of the groups. The rows of
an earlier opening stay until a new opening has succeeded.
-/
namespace RowStore

structure SummaryState (σ : Type) where
  child : Lookahead σ
  groups : Groups := ⟨[]⟩
  results : Option Playback := none

namespace Source
variable {σ : Type}

/-- Adds a tuple to the groups; the database is not touched. -/
def mergeStep (aggregation : Aggregation) (t : Tuple) : Run Groups Unit := fun (groups, db) =>
  match aggregation.merge t groups with
  | .ok () groups => .ok () (groups, db)
  | .error e groups => .error (.error e) (groups, db)

/-- Opens the child, reads all its tuples and makes the rows of the groups. -/
def startSummary (child : Source σ) (aggregation : Aggregation) : Run (SummaryState σ) Unit :=
  fun (s, db) =>
    match child.open (s.child, db) with
    | .error e (inner, db) => .error e ({ s with child := inner }, db)
    | .ok () (inner, db) =>
      match child.forEach (mergeStep aggregation) ((inner, ⟨[]⟩), db) with
      | .error e ((inner, groups), db) => .error e ({ s with child := inner, groups }, db)
      | .ok () ((inner, groups), db) =>
        match aggregation.rows groups with
        | .error e => .error (.error e) ({ s with child := inner, groups }, db)
        | .ok rows => .ok () ({ child := inner, groups, results := some (.ofRows rows) }, db)

def pullSummary : Run (SummaryState σ) (Option Tuple) := fun (s, db) =>
  match s.results with
  | none => .ok none (s, db)
  | some playback => .ok playback.next.1 ({ s with results := some playback.next.2 }, db)

/-- The rows that a summary still has to play. -/
def pendingSummary (s : SummaryState σ) : Nat × Nat :=
  (0, (s.results.map fun playback => playback.rest.length).getD 0)

theorem pendingSummary_pull {s s' : SummaryState σ × Database} {t : Tuple}
    (h : pullSummary s = .ok (some t) s') :
    LessPending (pendingSummary s'.1) (pendingSummary s.1) := by
  obtain ⟨⟨child, groups, results⟩, db⟩ := s
  cases results with
  | none => simp [pullSummary] at h
  | some playback =>
    simp only [pullSummary, EStateM.Result.ok.injEq] at h
    obtain ⟨ht, rfl⟩ := h
    exact Prod.Lex.right _ (Playback.length_rest_next ht)

def summary (child : Source σ) (aggregation : Aggregation) : Source (SummaryState σ) where
  start := child.startSummary aggregation
  pull := pullSummary
  restart := fun (s, db) => .ok () ({ s with results := s.results.map Playback.rewind }, db)
  stop := fun s => { s with child := child.close s.child, results := none }
  pending := pendingSummary
  pending_pull := pendingSummary_pull

end Source
end RowStore
