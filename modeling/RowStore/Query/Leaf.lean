import RowStore.Query.Playback
import RowStore.Query.Source

/-!
# Leaves of a query

A query starts from given rows or from the scan of a file. A scan hands its tuples out under the
schema seen through the table's alias, together with the records they were read from.
-/
namespace RowStore.Source

/-- The given rows, from the front after each start. -/
def rows : Source Playback where
  start := fun (playback, db) => .ok () (playback.rewind, db)
  pull := fun (playback, db) => .ok playback.next.1 (playback.next.2, db)
  restart := fun (playback, db) => .ok () (playback.rewind, db)
  stop := id
  pending := fun playback => (0, playback.rest.length)
  pending_pull := by
    intro s s' t h
    obtain ⟨playback, db⟩ := s
    simp only [EStateM.Result.ok.injEq] at h
    obtain ⟨ht, rfl⟩ := h
    exact Prod.Lex.right _ (Playback.length_rest_next ht)

/-- The next tuple of the cursor under the schema; without a cursor there is none. -/
def pullScan (schema : Schema) : Run (Option Cursor) (Option Tuple)
  | (none, db) => .ok none (none, db)
  | (some cursor, db) =>
    match Cursor.next (cursor, db) with
    | .error e (cursor, db) => .error e (some cursor, db)
    | .ok none (cursor, db) => .ok none (some cursor, db)
    | .ok (some t) (cursor, db) =>
      match t.resetSchema schema with
      | .error e => .error (.error e) (some cursor, db)
      | .ok t => .ok (some t) (some cursor, db)

/-- What a scan has left to visit. -/
def pendingScan : Option Cursor → Nat × Nat
  | none => (0, 0)
  | some cursor => cursor.pending

theorem pendingScan_pull (schema : Schema) {s s' : Option Cursor × Database} {t : Tuple}
    (h : pullScan schema s = .ok (some t) s') : LessPending (pendingScan s'.1) (pendingScan s.1) := by
  obtain ⟨cursor, db⟩ := s
  cases cursor with
  | none => simp [pullScan] at h
  | some cursor =>
    simp only [pullScan] at h
    split at h
    · cases h
    · cases h
    · next hnext =>
      split at h
      · cases h
      · cases h
        exact Cursor.pending_next hnext

/-- The tuples of the file under the schema. -/
def scan (file : TableFile) (schema : Schema) : Source (Option Cursor) where
  start := fun (_, db) => .ok () (some (Cursor.start file db.volume), db)
  pull := pullScan schema
  restart := fun (cursor, db) =>
    .ok () (cursor.map fun cursor => Cursor.start cursor.file db.volume, db)
  stop := fun _ => none
  pending := pendingScan
  pending_pull := pendingScan_pull schema

end RowStore.Source
