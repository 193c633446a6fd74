/-!
# Countdowns

A loop ends when the work left to it is a pair of numbers that goes down in lexicographic order: the
second number may jump to any value whenever the first goes down. `Countdown.run` repeats a step by
recursion on the two numbers, so a run from a closed state computes; the main statement is the
equation of the loop.
-/
namespace RowStore

/-- The order in which the work left to a loop goes down. -/
abbrev LessPending : Nat × Nat → Nat × Nat → Prop := Prod.Lex (· < ·) (· < ·)

theorem lessPending_iff {a b : Nat × Nat} : LessPending a b ↔ a.1 < b.1 ∨ a.1 = b.1 ∧ a.2 < b.2 :=
  Prod.lex_def

theorem lessPending_trans {a b c : Nat × Nat} (hab : LessPending a b) (hbc : LessPending b c) :
    LessPending a c := by
  rw [lessPending_iff] at *
  omega

theorem lessPending_wf : WellFounded LessPending := (Prod.lex Nat.lt_wfRel Nat.lt_wfRel).wf

namespace Countdown
variable {S R : Type}

/-- At most `n` steps while the first number stays at `m`; below `m` the loop goes on as `lower`. -/
def turns (left : S → Nat × Nat) (step : S → R ⊕ S) (m : Nat) (lower : S → R) : Nat → S → R
  | 0, s => lower s
  | n + 1, s =>
    match step s with
    | .inl r => r
    | .inr s' => if (left s').1 < m then lower s' else turns left step m lower n s'

/-- The loop from a state whose first number is at most `m`. -/
def rounds (left : S → Nat × Nat) (step : S → R ⊕ S) (stuck : S → R) : Nat → S → R
  | 0, s => turns left step 0 stuck ((left s).2 + 1) s
  | m + 1, s =>
    if (left s).1 ≤ m then rounds left step stuck m s
    else turns left step (m + 1) (rounds left step stuck m) ((left s).2 + 1) s

/-- Repeats the step until it ends with a result. A step that leaves no less work may get stuck. -/
def run (left : S → Nat × Nat) (step : S → R ⊕ S) (stuck : S → R) (s : S) : R :=
  rounds left step stuck (left s).1 s

variable {left : S → Nat × Nat} {step : S → R ⊕ S} {stuck : S → R}

private theorem rounds_eq_run {m : Nat} {s : S} (h : (left s).1 ≤ m) :
    rounds left step stuck m s = run left step stuck s := by
  induction m with
  | zero => rw [run, Nat.le_zero.mp h]
  | succ m ih =>
    by_cases hm : (left s).1 ≤ m
    · rw [rounds, if_pos hm, ih hm]
    · rw [run, Nat.le_antisymm h (Nat.lt_of_not_le hm)]

private theorem turns_eq_turns (hstep : ∀ s s', step s = .inr s' → LessPending (left s') (left s))
    {m : Nat} {lower : S → R} {n k : Nat} {s : S} (hm : (left s).1 = m) (hn : (left s).2 < n)
    (hk : (left s).2 < k) : turns left step m lower n s = turns left step m lower k s := by
  induction n generalizing k s with
  | zero => omega
  | succ n ih =>
    cases k with
    | zero => omega
    | succ k =>
      rw [turns, turns]
      cases hs : step s with
      | inl r => rfl
      | inr s' =>
        by_cases hlow : (left s').1 < m
        · simp only [hlow, if_true]
        · have hless := lessPending_iff.mp (hstep _ _ hs)
          simp only [hlow, if_false]
          exact ih (by omega) (by omega) (by omega)

/-- The loop below a first number. -/
private def below (left : S → Nat × Nat) (step : S → R ⊕ S) (stuck : S → R) : Nat → S → R
  | 0 => stuck
  | m + 1 => rounds left step stuck m

private theorem run_eq_turns {m : Nat} {s : S} (hm : (left s).1 = m) :
    run left step stuck s = turns left step m (below left step stuck m) ((left s).2 + 1) s := by
  subst hm
  unfold run
  cases hm : (left s).1 with
  | zero => rfl
  | succ m => rw [rounds, if_neg (by omega), below]

private theorem below_eq_run {m : Nat} {s : S} (h : (left s).1 < m) :
    below left step stuck m s = run left step stuck s := by
  cases m with
  | zero => exact absurd h (Nat.not_lt_zero _)
  | succ m => exact rounds_eq_run (Nat.le_of_lt_succ h)

/-- A loop whose every step leaves less work does one step and then goes on. -/
theorem run_eq (hstep : ∀ s s', step s = .inr s' → LessPending (left s') (left s)) (s : S) :
    run left step stuck s =
      match step s with
      | .inl r => r
      | .inr s' => run left step stuck s' := by
  rw [run_eq_turns rfl, turns]
  cases hs : step s with
  | inl r => rfl
  | inr s' =>
    have hless := lessPending_iff.mp (hstep _ _ hs)
    by_cases hlow : (left s').1 < (left s).1
    · simp only [hlow, if_true]
      exact below_eq_run hlow
    · have hm : (left s').1 = (left s).1 := by omega
      simp only [hlow, if_false]
      rw [run_eq_turns hm]
      exact turns_eq_turns hstep hm (by omega) (by omega)

/-- What holds of the last step and is passed back by each step before holds of the loop. -/
theorem run_induction (hstep : ∀ s s', step s = .inr s' → LessPending (left s') (left s))
    {motive : S → R → Prop} (last : ∀ s r, step s = .inl r → motive s r)
    (next : ∀ s s' r, step s = .inr s' → motive s' r → motive s r) (s : S) :
    motive s (run left step stuck s) := by
  induction s using (InvImage.wf left lessPending_wf).induction with
  | _ s ih =>
    rw [run_eq hstep]
    cases hs : step s with
    | inl r => exact last s r hs
    | inr s' => exact next s s' _ hs (ih s' (hstep _ _ hs))

end Countdown
end RowStore
