import Mathlib.Control.Monad.Basic
import RowStore.Proofs.Changes
import RowStore.Proofs.Registrations

/-!
# Changes that fail on the way

A change goes through its child when a row is first asked for. When that fails, what was changed stays
changed and the child stays where it is, but the count starts anew at the next demand. So the row that
comes out at last counts the tuples that were changed since the operator was opened, without those of the
demands that failed.
-/
namespace RowStore
open Database

namespace Source
variable {σ : Type}

/-- Applies the operation and notes the tuple, as long as tuples can be counted. -/
def noteStep (apply : Tuple → Db Unit) (t : Tuple) : Run (List Tuple) Unit := fun (noted, db) =>
  match apply t db with
  | .error e db => .error e (noted, db)
  | .ok () db =>
    if noted.length + 1 ≤ 2147483647 then .ok () (noted ++ [t], db)
    else .error (.violation .counterOverflow) (noted ++ [t], db)

/-- The tuples that a pull of the change applies the operation to. -/
def appliedBy (child : Source σ) (apply : Tuple → Db Unit) (s : ChangeState σ) (db : Database) :
    List Tuple :=
  if s.emitted then []
  else match s.count with
    | some _ => []
    | none =>
      match child.forEach (noteStep apply) ((s.child, []), db) with
      | .ok _ ((_, noted), _) | .error _ ((_, noted), _) => noted

/-- The tuples that the operator of the change applies the operation to when it is asked. -/
def appliedOn (child : Source σ) (apply : Tuple → Db Unit) (demand : Demand)
    (look : Lookahead (ChangeState σ)) (db : Database) : List Tuple :=
  if demand.pulls && look.isOpen && look.peeked.isNone then child.appliedBy apply look.inner db else []

/-- The run that notes ends as the run that counts, with as many tuples noted as were counted. -/
def Alike : EStateM.Result Fault ((Lookahead σ × Nat) × Database) Unit →
    EStateM.Result Fault ((Lookahead σ × List Tuple) × Database) Unit → Prop
  | .ok _ ((look, n), db), noting =>
    ∃ noted, noting = .ok () ((look, noted), db) ∧ noted.length = n ∧ n ≤ 2147483647
  | .error e ((look, _), db), noting => ∃ noted, noting = .error e ((look, noted), db)

theorem feed_alike (child : Source σ) (apply : Tuple → Db Unit) {look : Lookahead σ} {noted : List Tuple}
    (hle : noted.length ≤ 2147483647) (db : Database) :
    (∃ counting noting, child.feed (countStep apply) ((look, noted.length), db) = .inl counting ∧
      child.feed (noteStep apply) ((look, noted), db) = .inl noting ∧ Alike counting noting) ∨
      ∃ look' t db', noted.length + 1 ≤ 2147483647 ∧
        child.feed (countStep apply) ((look, noted.length), db) = .inr ((look', noted.length + 1), db') ∧
          child.feed (noteStep apply) ((look, noted), db) = .inr ((look', noted ++ [t]), db') := by
  unfold feed
  cases child.next (look, db) with
  | error e x => exact Or.inl ⟨_, _, rfl, rfl, noted, rfl⟩
  | ok answer x =>
    cases answer with
    | none => exact Or.inl ⟨_, _, rfl, rfl, noted, rfl, rfl, hle⟩
    | some t =>
      cases happly : apply t x.2 with
      | error e db' =>
        simp only [countStep, noteStep, happly]
        exact Or.inl ⟨_, _, rfl, rfl, noted, rfl⟩
      | ok _ db' =>
        by_cases hmore : noted.length + 1 ≤ 2147483647
        · simp only [countStep, noteStep, happly, hmore, if_true]
          exact Or.inr ⟨x.1, t, db', trivial, rfl, rfl⟩
        · simp only [countStep, noteStep, happly, hmore, if_false]
          exact Or.inl ⟨_, _, rfl, rfl, noted ++ [t], rfl⟩

theorem forEach_alike (child : Source σ) (apply : Tuple → Db Unit) (look : Lookahead σ) (db : Database) :
    Alike (child.forEach (countStep apply) ((look, 0), db))
      (child.forEach (noteStep apply) ((look, []), db)) := by
  -- The induction is on the run that counts; the other one has noted as many tuples at each turn.
  let motive (s : (Lookahead σ × Nat) × Database)
      (r : EStateM.Result Fault ((Lookahead σ × Nat) × Database) Unit) : Prop :=
    ∀ noted : List Tuple, noted.length = s.1.2 → noted.length ≤ 2147483647 →
      Alike r (child.forEach (noteStep apply) ((s.1.1, noted), s.2))
  have hrun : motive ((look, 0), db) (child.forEach (countStep apply) ((look, 0), db)) := by
    refine Countdown.run_induction (fun _ _ => child.remaining_feed _) ?_ ?_ _
    · rintro ⟨⟨look, n⟩, db⟩ r hfeed noted rfl hle
      rw [forEach_eq]
      rcases child.feed_alike apply hle db with ⟨_, _, hcount, hnote, halike⟩ | ⟨_, _, _, _, hcount, _⟩
      · rw [hcount] at hfeed
        cases hfeed
        rwa [hnote]
      · rw [hcount] at hfeed
        cases hfeed
    · rintro ⟨⟨look, n⟩, db⟩ s' r hfeed ih noted rfl hle
      rw [forEach_eq]
      rcases child.feed_alike apply hle db with ⟨_, _, hcount, _, _⟩ | ⟨_, t, _, hmore, hcount, hnote⟩
      · rw [hcount] at hfeed
        cases hfeed
      · rw [hcount] at hfeed
        cases hfeed
        rw [hnote]
        have hlength : (noted ++ [t]).length = noted.length + 1 := List.length_append
        exact ih _ hlength (hlength.symm ▸ hmore)
  exact hrun [] rfl (Nat.zero_le _)

end Source

/-- An operator that changes tables with its database, and the tuples that it has changed since it was
opened. -/
structure Tally (σ : Type) where
  look : Lookahead (ChangeState σ)
  db : Database
  applied : List Tuple := []
  /-- Those of the demands that failed. -/
  unreported : List Tuple := []

namespace Source
variable {σ : Type}

/-- The operator after the event. -/
def tally (child : Source σ) (apply : Tuple → Db Unit) (before : Tally σ) : Event Demand → Tally σ
  | .use use => { before with db := use.leaves before.db }
  | .ask demand =>
    let made := child.appliedOn apply demand before.look before.db
    match (child.change apply).respond demand (before.look, before.db) with
    | .ok _ (look, db) => { before with look, db, applied := before.applied ++ made }
    | .error _ (look, db) => ⟨look, db, before.applied ++ made, before.unreported ++ made⟩

def tallyAll (child : Source σ) (apply : Tuple → Db Unit) : List (Event Demand) → Tally σ → Tally σ
  | [], before => before
  | event :: events, before => child.tallyAll apply events (child.tally apply before event)

/-- Whatever happens after the change is opened, a row that comes out counts the tuples changed since then
without the unreported ones. So it counts all of them exactly if none is unreported. -/
def CountsReported (child : Source σ) (apply : Tuple → Db Unit)
    (opened : Lookahead (ChangeState σ) × Database) : Prop :=
  ∀ events row x,
    let before := child.tallyAll apply events { look := opened.1, db := opened.2 }
    (child.change apply).next (before.look, before.db) = .ok (some row) x →
      let last := child.tally apply before (.ask .next)
      ∃ v : Int32, row = ⟨countSchema, [.int v], none⟩ ∧
        v.toInt + last.unreported.length = last.applied.length ∧
          (v.toInt = last.applied.length ↔ last.unreported = [])

end Source

/-- The row counts the applied tuples without the unreported ones. -/
def CountsOf (applied unreported : List Tuple) (row : Tuple) : Prop :=
  ∃ n ≤ 2147483647, row = Source.countRow n ∧ applied.length = n + unreported.length

/-- No tuple was applied but unreported ones, or the row counts the others. -/
inductive ChangeState.Balanced {σ : Type} (applied unreported : List Tuple) : ChangeState σ → Prop
  | uncounted {child : Lookahead σ} (h : applied = unreported) :
      Balanced applied unreported ⟨child, none, false⟩
  | counted {child : Lookahead σ} {row : Tuple} {emitted : Bool} (h : CountsOf applied unreported row) :
      Balanced applied unreported ⟨child, some row, emitted⟩

theorem CountsOf.kept {applied unreported : List Tuple} {row : Tuple} (h : CountsOf applied unreported row) :
    CountsOf (applied ++ []) unreported row := by
  rwa [List.append_nil]

theorem ChangeState.Balanced.kept {σ : Type} {applied unreported : List Tuple} {s : ChangeState σ}
    (h : s.Balanced applied unreported) : s.Balanced (applied ++ []) unreported := by
  rwa [List.append_nil]

/-- The operator is open, and what it has counted and looked at is in balance. -/
structure Tally.Balanced {σ : Type} (tally : Tally σ) : Prop where
  isOpen : tally.look.isOpen = true
  inner : tally.look.inner.Balanced tally.applied tally.unreported
  peeked : ∀ row ∈ tally.look.peeked, CountsOf tally.applied tally.unreported row

/-- The answer to a demand keeps the balance with the tuples that it applied, and a row that comes out is in
balance. A demand that fails leaves these tuples unreported. -/
def Tally.Answered {σ : Type} (before : Tally σ) (made : List Tuple) :
    EStateM.Result Fault (Lookahead (ChangeState σ) × Database) Answer → Prop
  | .ok answer (look, db) =>
    Balanced { before with look, db, applied := before.applied ++ made } ∧
      ∀ row, answer = .row (some row) → CountsOf (before.applied ++ made) before.unreported row
  | .error _ (look, db) => Balanced ⟨look, db, before.applied ++ made, before.unreported ++ made⟩

/-- The same for a pull. -/
def ChangeState.Pulled {σ : Type} (applied unreported made : List Tuple) :
    EStateM.Result Fault (ChangeState σ × Database) (Option Tuple) → Prop
  | .ok answer (s, _) => s.Balanced (applied ++ made) unreported ∧
      ∀ row ∈ answer, CountsOf (applied ++ made) unreported row
  | .error _ (s, _) => s.Balanced (applied ++ made) (unreported ++ made)

namespace Source
variable {σ : Type} (child : Source σ) (apply : Tuple → Db Unit)

theorem pullChange_balanced {applied unreported : List Tuple} {s : ChangeState σ}
    (h : s.Balanced applied unreported) (db : Database) :
    ChangeState.Pulled applied unreported (child.appliedBy apply s db)
      ((child.change apply).pull (s, db)) := by
  change ChangeState.Pulled _ _ _ (child.pullChange apply (s, db))
  cases h with
  | @counted look row emitted hrow =>
    have hnone : child.appliedBy apply ⟨look, some row, emitted⟩ db = [] := by
      cases emitted <;> rfl
    rw [hnone]
    cases emitted with
    | false => exact ⟨.counted hrow.kept, fun _ heq => Option.some.inj heq ▸ hrow.kept⟩
    | true => exact ⟨.counted hrow.kept, by rintro _ ⟨⟩⟩
  | @uncounted look hall =>
    subst hall
    -- The count starts at zero here, whatever was applied before.
    have halike := forEach_alike child apply look db
    simp only [pullChange, appliedBy, Bool.false_eq_true, if_false]
    cases hcount : child.forEach (countStep apply) ((look, 0), db) with
    | ok _ x =>
      rw [hcount] at halike
      obtain ⟨noted, hnote, hlength, hle⟩ := halike
      rw [hnote]
      have hrow : CountsOf (applied ++ noted) applied (countRow x.1.2) := by
        refine ⟨x.1.2, hle, rfl, ?_⟩
        rw [List.length_append, hlength, Nat.add_comm]
      exact ⟨.counted hrow, fun _ heq => Option.some.inj heq ▸ hrow⟩
    | error e x =>
      rw [hcount] at halike
      obtain ⟨noted, hnote⟩ := halike
      rw [hnote]
      exact .uncounted rfl

theorem open_balanced {look : Lookahead (ChangeState σ)} {db : Database}
    {opened : Lookahead (ChangeState σ) × Database}
    (h : (child.change apply).open (look, db) = .ok () opened) :
    Tally.Balanced { look := opened.1, db := opened.2 } := by
  rw [Source.open] at h
  split at h
  · next inner db' hstart =>
    cases h
    change child.startChange (look.inner, db) = _ at hstart
    rw [startChange] at hstart
    split at hstart
    · cases hstart
    · cases hstart
      exact ⟨rfl, .uncounted rfl, by rintro _ ⟨⟩⟩
  · cases h

theorem respond_balanced {before : Tally σ} (h : before.Balanced) (demand : Demand) :
    before.Answered (child.appliedOn apply demand before.look before.db)
      ((child.change apply).respond demand (before.look, before.db)) := by
  obtain ⟨⟨inner, isOpen, peeked⟩, db, applied, unreported⟩ := before
  obtain ⟨hopen, hinner, hpeeked⟩ := h
  dsimp only at hopen hinner hpeeked ⊢
  subst hopen
  rcases demand.rewind_or_pulls with rfl | hpulls
  · rw [respond_of_restart peeked rfl]
    refine ⟨⟨rfl, ?_, by rintro _ ⟨⟩⟩, by rintro _ ⟨⟩⟩
    cases hinner.kept with
    | uncounted hall => exact .uncounted hall
    | counted hrow => exact .counted hrow
  · have hmade : child.appliedOn apply demand ⟨inner, true, peeked⟩ db =
        if peeked.isNone then child.appliedBy apply inner db else [] := by
      simp only [appliedOn, hpulls, Bool.true_and]
    rw [hmade]
    cases peeked with
    | some t =>
      rw [respond_of_peeked hpulls]
      exact ⟨⟨rfl, hinner.kept, fun row hrow => (hpeeked row (Demand.mem_of_keeps hrow)).kept⟩,
        fun row hrow => (hpeeked row (Demand.mem_of_answerWith hrow)).kept⟩
    | none =>
      have hpull := child.pullChange_balanced apply hinner db
      cases hrun : (child.change apply).pull (inner, db) with
      | ok answer x =>
        rw [hrun] at hpull
        rw [respond_of_pull hpulls hrun]
        exact ⟨⟨rfl, hpull.1, fun row hrow => hpull.2 row (Demand.mem_of_keeps hrow)⟩,
          fun row hrow => hpull.2 row (Demand.mem_of_answerWith hrow)⟩
      | error e x =>
        rw [hrun] at hpull
        rw [respond_of_pull_error hpulls hrun]
        exact ⟨rfl, hpull, by rintro _ ⟨⟩⟩

theorem tally_balanced {before : Tally σ} (h : before.Balanced) (event : Event Demand) :
    (child.tally apply before event).Balanced := by
  cases event with
  | use use => exact ⟨h.isOpen, h.inner, h.peeked⟩
  | ask demand =>
    have hanswered := child.respond_balanced apply h demand
    rw [tally]
    cases hrun : (child.change apply).respond demand (before.look, before.db) with
    | ok answer x =>
      rw [hrun] at hanswered
      exact hanswered.1
    | error e x =>
      rw [hrun] at hanswered
      exact hanswered

theorem tallyAll_balanced {before : Tally σ} (h : before.Balanced) (events : List (Event Demand)) :
    (child.tallyAll apply events before).Balanced := by
  induction events generalizing before with
  | nil => exact h
  | cons event events ih => exact ih (child.tally_balanced apply h event)

theorem countsReported {look : Lookahead (ChangeState σ)} {db : Database}
    {opened : Lookahead (ChangeState σ) × Database}
    (h : (child.change apply).open (look, db) = .ok () opened) : child.CountsReported apply opened := by
  intro events row x before hnext last
  have hbefore : before.Balanced := child.tallyAll_balanced apply (child.open_balanced apply h) events
  have hanswered := child.respond_balanced apply hbefore .next
  have hlast : last = child.tally apply before (.ask .next) := rfl
  rw [tally, respond_next hnext] at hlast
  rw [respond_next hnext] at hanswered
  obtain ⟨n, hle, rfl, hlength⟩ := hanswered.2 row rfl
  have hv : (Int32.ofNat n).toInt = n := Int32.toInt_ofNat_of_lt (Nat.lt_succ_of_le hle)
  have hsum : last.applied.length = n + last.unreported.length := by
    rw [hlast]
    exact hlength
  refine ⟨Int32.ofNat n, rfl, ?_, ?_⟩
  · rw [hv, hsum, Int.natCast_add]
  · rw [hv, hsum, ← List.length_eq_zero_iff]
    omega

end Source

namespace Plan

/-- A plan that inserts or deletes is opened on any database and asked on after errors, while the database
is used in any way. Each row that comes out counts the child's tuples that were inserted or deleted since
then, without those of the demands that failed. -/
theorem change_counts_reported (txn : TransactionId) (table : TableId) (child : Plan) :
    (∀ look db opened, (Plan.insert txn table child).source.open (look, db) = .ok () opened →
      child.source.CountsReported (insertTuple txn table) opened) ∧
      ∀ look db opened, (Plan.delete txn child).source.open (look, db) = .ok () opened →
        child.source.CountsReported (deleteTuple txn) opened :=
  ⟨fun _ _ _ h => child.source.countsReported _ h, fun _ _ _ h => child.source.countsReported _ h⟩

/-- The first row is lost as the table does not exist yet, and the second one is inserted and counted. -/
theorem change_counts_reported_after_create :
    let schema : Schema := ⟨[{ type := .integer, name := some "a" }], List.cons_ne_nil _ _⟩
    let row (value : Int32) : Tuple := ⟨schema, [.int value], none⟩
    let table : TableId := .file "t.dat"
    let child : Plan := .rows schema [row 7, row 8]
    let plan : Plan := .insert ⟨1⟩ table child
    let db := onVolume { pageSize := 32, poolPages := 4 } {}
    let opened : Lookahead (ChangeState child.State) × Database :=
      ({ inner := { child := { inner := child.initial, isOpen := true } }, isOpen := true }, db)
    let before := child.source.tallyAll (insertTuple ⟨1⟩ table)
      [.ask .next, .use (.create "t.dat" "t" schema "a")] { look := opened.1, db := opened.2 }
    let last := child.source.tally (insertTuple ⟨1⟩ table) before (.ask .next)
    plan.source.open ({ inner := plan.initial }, db) = .ok () opened ∧
      child.source.CountsReported (insertTuple ⟨1⟩ table) opened ∧
        (∃ x, plan.source.next (before.look, before.db) = .ok (some (Source.countRow 1)) x) ∧
          last.applied = [row 8] ∧ last.unreported = [] := by
  intro schema row table child plan db opened before last
  have hreported := (change_counts_reported ⟨1⟩ table child).1 { inner := plan.initial } db opened rfl
  have hcounted : outcome (plan.source.next (before.look, before.db)) = .ok (some (Source.countRow 1)) := by
    decide +kernel
  exact ⟨rfl, hreported, exists_ok_of_outcome hcounted, by decide +kernel, by decide +kernel⟩

/-- The first demand deletes a row and then fails at one without a record, and the next demand deletes the
last row and counts only this one. -/
theorem delete_counts_one_of_two :
    let schema : Schema := ⟨[{ type := .integer, name := some "a" }], List.cons_ne_nil _ _⟩
    let row (value : Int32) (record : Option RecordId) : Tuple := ⟨schema, [.int value], record⟩
    let page : PageId := ⟨.file "t.dat", 0⟩
    let db := play [.create "t.dat" "t" schema "a", .call (.insert ⟨1⟩ page.table (row 7 none)),
      .call (.insert ⟨1⟩ page.table (row 8 none))] (onVolume { pageSize := 32, poolPages := 4 } {})
    let child : Plan := .rows schema [row 7 (some ⟨page, 0⟩), row 9 none, row 8 (some ⟨page, 1⟩)]
    let plan : Plan := .delete ⟨1⟩ child
    let opened : Lookahead (ChangeState child.State) × Database :=
      ({ inner := { child := { inner := child.initial, isOpen := true } }, isOpen := true }, db)
    let before := child.source.tallyAll (deleteTuple ⟨1⟩) [.ask .next] { look := opened.1, db := opened.2 }
    let last := child.source.tally (deleteTuple ⟨1⟩) before (.ask .next)
    plan.source.open ({ inner := plan.initial }, db) = .ok () opened ∧
      (∃ x, plan.source.next opened = .error (.error .missingRecordId) x) ∧
        (∃ x, plan.source.next (before.look, before.db) = .ok (some (Source.countRow 1)) x) ∧
          last.applied = [row 7 (some ⟨page, 0⟩), row 8 (some ⟨page, 1⟩)] := by
  intro schema row page db child plan opened before last
  have hfailed : outcome (plan.source.next opened) = .error (.error .missingRecordId) := by decide +kernel
  have hcounted : outcome (plan.source.next (before.look, before.db)) = .ok (some (Source.countRow 1)) := by
    decide +kernel
  exact ⟨rfl, exists_error_of_outcome hfailed, exists_ok_of_outcome hcounted, by decide +kernel⟩

end Plan
end RowStore
