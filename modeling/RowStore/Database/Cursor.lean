import RowStore.Database.Table

/-!
# Cursors

A cursor reads the tuples of a file page by page, in slot order. How many pages it visits is fixed
when it is opened or rewound, and it keeps the tuples of the page it is on as they were when it came
there. A page that cannot be fetched counts as visited.
-/
namespace RowStore

structure Cursor where
  file : TableFile
  nextPage : Nat
  pagesLeft : Nat
  buffered : List Tuple := []
  deriving DecidableEq

/-- An operation on a state of its own and a database; a failure keeps what it changed in both. -/
abbrev Run (σ α : Type) := EStateM Fault (σ × Database) α

namespace Cursor

/-- A cursor before the first tuple, over the pages the file has now. -/
def start (file : TableFile) (volume : Volume) : Cursor :=
  { file, nextPage := 0, pagesLeft := (file.numPages volume).toNat }

/-- The first tuple on the `left` pages from number `page` on, and a cursor behind it. -/
def advance (file : TableFile) (page : Nat) :
    (left : Nat) → Database → EStateM.Result Fault (Cursor × Database) (Option Tuple)
  | 0, db => .ok none (⟨file, page, 0, []⟩, db)
  | left + 1, db =>
    match Database.fetch ⟨file.id, UInt32.ofNat page⟩ db with
    | .error e db => .error e (⟨file, page + 1, left, []⟩, db)
    | .ok frame db =>
      match frame.page.tuples with
      | [] => advance file (page + 1) left db
      | t :: ts => .ok (some t) (⟨file, page + 1, left, ts⟩, db)

/-- The next tuple, or none when no page is left. -/
def next : Run Cursor (Option Tuple) := fun (cursor, db) =>
  match cursor.buffered with
  | t :: ts => .ok (some t) ({ cursor with buffered := ts }, db)
  | [] => advance cursor.file cursor.nextPage cursor.pagesLeft db

/-- Back before the first tuple, over the pages the file has now. -/
def rewind : Run Cursor Unit := fun (cursor, db) => .ok () (start cursor.file db.volume, db)

/-- What is left to visit: pages first, then tuples of the page at hand. -/
def pending (cursor : Cursor) : Nat × Nat := (cursor.pagesLeft, cursor.buffered.length)

theorem pagesLeft_advance_lt {file : TableFile} {page left : Nat} {db db' : Database} {t : Tuple}
    {cursor : Cursor} (h : advance file page left db = .ok (some t) (cursor, db')) :
    cursor.pagesLeft < left := by
  induction left generalizing page db with
  | zero => simp [advance] at h
  | succ left ih =>
    rw [advance] at h
    split at h
    · cases h
    · split at h
      · exact Nat.lt_succ_of_lt (ih h)
      · cases h
        exact Nat.lt_succ_self _

theorem pending_next {s s' : Cursor × Database} {t : Tuple} (h : next s = .ok (some t) s') :
    Prod.Lex (· < ·) (· < ·) s'.1.pending s.1.pending := by
  obtain ⟨⟨file, page, left, buffered⟩, db⟩ := s
  cases buffered with
  | nil => exact Prod.Lex.left _ _ (pagesLeft_advance_lt h)
  | cons u us =>
    cases h
    exact Prod.Lex.right _ (Nat.lt_succ_self _)

end Cursor
end RowStore
