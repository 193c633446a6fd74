import RowStore.Proofs.Demands
import RowStore.Proofs.Transparency

/-!
# Changes are made once

The first demand of a row makes an operator that changes tables run through its child. The main
statement says that it answers any demands from a list of one row, the number of changes, and that
none but the first demand of a row touches the database. What a plan makes of the tables is stated
through their sheets, before that demand and after it.
-/
namespace RowStore

variable {σ : Type}

/-- The row was counted, and the database is what the changes left. -/
def ChangeState.Counted (row : Tuple) (db : Database) (s : ChangeState σ) (now : Database)
    (rest : List Tuple) : Prop :=
  now = db ∧ s.count = some row ∧ rest = if s.emitted then [] else [row]

namespace Source
variable {child : Source σ} {apply : Tuple → Db Unit}

theorem yields_counted (child : Source σ) (apply : Tuple → Db Unit) (row : Tuple) (db : Database) :
    (child.change apply).Yields [row] (ChangeState.Counted row db) := by
  constructor
  case pull =>
    rintro ⟨look, count, emitted⟩ now rest ⟨rfl, rfl, rfl⟩
    cases emitted with
    | false => exact ⟨⟨look, some row, true⟩, now, rfl, rfl, rfl, rfl⟩
    | true => exact ⟨⟨look, some row, true⟩, now, rfl, rfl, rfl, rfl⟩
  case restart =>
    rintro ⟨look, count, emitted⟩ now rest ⟨rfl, rfl, rfl⟩
    exact ⟨⟨look, some row, false⟩, now, rfl, rfl, rfl, rfl⟩

theorem respondAll_counted {row : Tuple} {db : Database} {look : Lookahead (ChangeState σ)} {i : Nat}
    (hlook : look.Ahead (ChangeState.Counted row db · db) ([row].drop i)) (demands : List Demand) :
    ∃ state, (child.change apply).respondAll demands (look, db) =
      .ok (Demand.expected [row] i demands) (state, db) := by
  obtain ⟨state, last, rest, hrest, hstate⟩ :=
    (yields_counted child apply row db).respondAll demands i hlook
  have hlast : last = db := by
    cases hstate with
    | unseen hs | peeked hs => exact hs.1
  rw [hlast] at hrest
  exact ⟨state, hrest⟩

variable {look look' : Lookahead σ} {db db' : Database} {n : Nat}

theorem open_change (h : child.open (look, db) = .ok () (look', db')) :
    (child.change apply).open ({ inner := { child := look } }, db) =
      .ok () (⟨{ child := look' }, true, none⟩, db') := by
  have hstart : (child.change apply).start ({ child := look }, db) = .ok () ({ child := look' }, db') := by
    simp only [change, startChange, h]
  rw [Source.open, hstart]

theorem pullChange_of_forEach
    (h : child.forEach (countStep apply) ((look, 0), db) = .ok () ((look', n), db')) :
    (child.change apply).pull ({ child := look }, db) =
      .ok (some (countRow n)) (⟨look', some (countRow n), true⟩, db') := by
  simp only [change, pullChange, Bool.false_eq_true, if_false, h]

theorem respondAll_change
    (h : child.forEach (countStep apply) ((look, 0), db) = .ok () ((look', n), db'))
    (demands : List Demand) :
    ∃ state, (child.change apply).respondAll demands (⟨{ child := look }, true, none⟩, db) =
      .ok (Demand.expected [countRow n] 0 demands)
        (state, if demands.any Demand.pulls then db' else db) := by
  have hpull := pullChange_of_forEach h
  induction demands with
  | nil => exact ⟨_, rfl⟩
  | cons demand demands ih =>
    cases demand with
    | rewind =>
      obtain ⟨state, hrest⟩ := ih
      exact ⟨state, respondAll_cons (respond_rewind rfl) hrest⟩
    | next =>
      obtain ⟨state, hrest⟩ : ∃ state, (child.change apply).respondAll demands
          (⟨⟨look', some (countRow n), true⟩, true, none⟩, db') =
            .ok (Demand.expected [countRow n] 1 demands) (state, db') :=
        respondAll_counted (.unseen ⟨rfl, rfl, rfl⟩) demands
      refine ⟨state, respondAll_cons (respond_next ?_) hrest⟩
      simp only [Source.next, if_true, hpull]
      rfl
    | hasNext =>
      obtain ⟨state, hrest⟩ : ∃ state, (child.change apply).respondAll demands
          (⟨⟨look', some (countRow n), true⟩, true, some (countRow n)⟩, db') =
            .ok (Demand.expected [countRow n] 0 demands) (state, db') :=
        respondAll_counted (.peeked ⟨rfl, rfl, rfl⟩) demands
      refine ⟨state, respondAll_cons (respond_hasNext ?_) hrest⟩
      simp only [Source.hasNext, if_true, hpull]
      rfl

end Source

namespace Plan
open Database

/-- The plan can be opened. It answers all demands from the one row with the count, and when a row is
first asked for the tables change. -/
def Changes (plan : Plan) (db : Database) (sheets sheets' : Sheets) (n : Nat) : Prop :=
  ∀ demands : List Demand, ∃ opened last, Operator.open (.ofPlan plan, db) = .ok () opened ∧
    LooksLike opened.2 sheets ∧
    Operator.respondAll demands opened = .ok (Demand.expected [Source.countRow n] 0 demands) last ∧
    LooksLike last.2 (if demands.any Demand.pulls then sheets' else sheets)

/-- The plan changes the tables if the answers come with the changed database once a row was asked for,
and with the opened one before. -/
theorem changes_of_respondAll {plan : Plan} {db opened changed : Database} {sheets sheets' : Sheets}
    {n : Nat} {look : Lookahead plan.State}
    (hopen : plan.source.open ({ inner := plan.initial }, db) = .ok () (look, opened))
    (hrespond : ∀ demands : List Demand, ∃ state, plan.source.respondAll demands (look, opened) =
      .ok (Demand.expected [Source.countRow n] 0 demands)
        (state, if demands.any Demand.pulls then changed else opened))
    (hopened : LooksLike opened sheets) (hchanged : LooksLike changed sheets') :
    plan.Changes db sheets sheets' n := by
  intro demands
  obtain ⟨state, hanswers⟩ := hrespond demands
  refine ⟨(⟨plan, look⟩, opened), (⟨plan, state⟩, if demands.any Demand.pulls then changed else opened),
    Operator.run_of_ok hopen, hopened, Operator.run_of_ok hanswers, ?_⟩
  split
  · exact hchanged
  · exact hopened

end Plan
end RowStore
