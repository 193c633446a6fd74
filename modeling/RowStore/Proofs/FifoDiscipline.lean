import RowStore.Proofs.FifoOrder

/-!
# The queue under calls

Every call is a chain of moves that admit one page each or leave the outline of the pool alone, or it
only takes pages out of the queue. The main statement collects what this says of every state that a
run can reach and of every call made there.
-/
namespace RowStore
open Relation

namespace Database

/-- One page comes into the pool, or the outline of the pool stays. -/
def Move (db db' : Database) : Prop :=
  SameTables db db' ∧
    ((∃ id, Admission id db db') ∨ db'.pool.outline = db.pool.outline)

/-- A pool in order stays in order, move by move. -/
def Evolves (db db' : Database) : Prop :=
  db.pool.InOrder → db'.pool.InOrder ∧ ReflTransGen Move db db'

theorem Evolves.refl (db : Database) : Evolves db db := fun h => ⟨h, .refl⟩

theorem Evolves.trans {a b c : Database} (hab : Evolves a b) (hbc : Evolves b c) : Evolves a c := by
  intro ha
  obtain ⟨hb, hfirst⟩ := hab ha
  obtain ⟨hc, hsecond⟩ := hbc hb
  exact ⟨hc, hfirst.trans hsecond⟩

/-- The pages may have changed in their frames, and nothing else in the pool. -/
def Still (db db' : Database) : Prop := SameTables db db' ∧ db'.pool.outline = db.pool.outline

theorem Still.refl (db : Database) : Still db db := ⟨.refl db, rfl⟩

theorem Still.trans {a b c : Database} (hab : Still a b) (hbc : Still b c) : Still a c :=
  ⟨hab.1.trans hbc.1, hbc.2.trans hab.2⟩

theorem Still.bind {α β : Type} {operation : Db α} {next : α → Db β} {db : Database}
    (hfirst : Still db (after operation db))
    (hnext : ∀ a db', operation db = .ok a db' → Still db' (after (next a) db')) :
    Still db (after (operation >>= next) db) :=
  after_bind_of_trans (R := Still) Still.trans hfirst hnext

theorem Still.evolves {db db' : Database} (h : Still db db') : Evolves db db' :=
  fun hin => ⟨hin.of_outline h.2, .single ⟨h.1, Or.inr h.2⟩⟩

theorem still_replacing (db : Database) (id : PageId) (page : Page) : Still db (db.replacing id page) :=
  ⟨⟨rfl, rfl, rfl⟩, Pool.outline_modify _ _ _⟩

theorem evolves_fetch (id : PageId) (db : Database) : Evolves db (after (fetch id) db) := by
  rcases fetch_cases id db with ⟨frame, _, hfetch⟩ | ⟨hmiss, load, middle, _, hfetch⟩ | ⟨e, hfetch⟩ |
    ⟨file, e, hfetch⟩
  · rw [after_of_ok hfetch]
    exact .refl db
  · intro hin
    obtain ⟨hadmission, hin', hsame⟩ := fetch_admission hin hmiss hfetch
    rw [after_of_ok hfetch]
    exact ⟨hin', .single ⟨hsame, Or.inl ⟨id, hadmission⟩⟩⟩
  · rw [after_of_error hfetch]
    exact .refl db
  · rw [after_of_error hfetch]
    exact Still.evolves ⟨sameTables_countTransfer _ _ _, rfl⟩

theorem evolves_update (txn : TransactionId) (id : PageId) (edit : PageEdit Unit) (db : Database) :
    Evolves db (after (update txn id edit) db) := by
  have hfetch := evolves_fetch id db
  rcases after_update txn id edit db with hafter | ⟨frame, page, _, hafter⟩
  · rwa [hafter]
  · rw [hafter]
    exact hfetch.trans (still_replacing _ id page).evolves

theorem evolves_insertAmong (file : TableFile) (txn : TransactionId) (t : Tuple) (page left : Nat)
    (db : Database) : Evolves db (after (insertAmong file txn t page left) db) := by
  induction left generalizing page db with
  | zero =>
    rw [after_congr (insertAmong_zero file txn t page db), after_updateList]
    have hstore : Still db (db.storing file (UInt32.ofNat page) (List.replicate file.pageSize 0)) :=
      ⟨sameTables_storing _ _ _ _, rfl⟩
    exact hstore.evolves.trans (evolves_update txn _ (insertEdit t) _)
  | succ left ih =>
    have hfirst := evolves_fetch ⟨file.id, UInt32.ofNat page⟩ db
    rw [after, insertAmong_succ]
    cases hfetch : fetch ⟨file.id, UInt32.ofNat page⟩ db with
    | error e db' =>
      rw [after_of_error hfetch] at hfirst
      exact hfirst
    | ok frame db' =>
      rw [after_of_ok hfetch] at hfirst
      apply hfirst.trans
      by_cases hfree : 0 < frame.page.numEmptySlots
      · simp only [hfree, if_true]
        have hupdate := evolves_update txn ⟨file.id, UInt32.ofNat page⟩ (insertEdit t) db'
        rwa [← after_updateList] at hupdate
      · simp only [hfree, if_false]
        exact ih (page + 1) db'

theorem evolves_insertTuple (txn : TransactionId) (table : TableId) (t : Tuple) (db : Database) :
    Evolves db (after (insertTuple txn table t) db) := by
  cases hfile : db.catalog.file table with
  | error e =>
    rw [after_of_error (insertTuple_of_missing txn t hfile)]
    exact .refl db
  | ok file =>
    have hinsert := insertTuple_eq txn t hfile
    by_cases hagrees : t.schema.Agrees file.schema
    · rw [if_pos hagrees] at hinsert
      rw [after_unanswered hinsert]
      exact evolves_insertAmong file txn t 0 _ db
    · rw [if_neg hagrees] at hinsert
      rw [after_of_error hinsert]
      exact .refl db

theorem evolves_deleteTuple (txn : TransactionId) (t : Tuple) (db : Database) :
    Evolves db (after (deleteTuple txn t) db) := by
  cases hrecord : t.record with
  | none =>
    rw [after_of_error (deleteTuple_of_noRecord txn hrecord db)]
    exact .refl db
  | some record =>
    cases hfile : db.catalog.file record.page.table with
    | error e =>
      rw [after_of_error (deleteTuple_of_missing txn hrecord hfile)]
      exact .refl db
    | ok file =>
      have hdelete := deleteTuple_eq txn hrecord hfile
      cases hcheck : file.checkPage db.volume record.page with
      | error e =>
        rw [hcheck] at hdelete
        rw [after_of_error hdelete]
        exact .refl db
      | ok _ =>
        rw [hcheck] at hdelete
        rw [after_unanswered hdelete]
        exact evolves_update txn _ _ db

theorem still_writeBack (id : PageId) (db : Database) : Still db (after (writeBack id) db) := by
  rcases writeBack_cases id db with ⟨hback, _⟩ | ⟨w, hback⟩ | ⟨e, hback⟩
  · rw [after_of_ok hback]
    exact .refl db
  · rw [after_of_ok hback]
    exact ⟨w.sameTables, w.outline⟩
  · rw [after_of_error hback]
    exact .refl db

theorem still_writeAll (ids : List PageId) (db : Database) : Still db (after (writeAll ids) db) := by
  induction ids generalizing db with
  | nil => exact .refl db
  | cons id ids ih =>
    rw [writeAll_cons]
    apply Still.bind (still_writeBack id db)
    intro _ db' _
    exact ih db'

/-- Pages may have been taken out of the queue, and nothing came in. -/
def Shrinks (db db' : Database) : Prop :=
  SameTables db db' ∧ db'.pool.queue.order.Sublist db.pool.queue.order ∧
    (db.pool.InOrder → db'.pool.InOrder)

theorem Still.shrinks {db db' : Database} (h : Still db db') : Shrinks db db' := by
  refine ⟨h.1, ?_, fun hin => hin.of_outline h.2⟩
  have horder : db'.pool.queue.order = db.pool.queue.order := congrArg (fun o => o.2.1) h.2
  exact horder ▸ List.Sublist.refl _

theorem shrinks_without (id : PageId) (db : Database) : Shrinks db (db.without id) :=
  ⟨⟨rfl, rfl, rfl⟩, List.erase_sublist, fun hin => hin.drop id⟩

theorem shrinks_foldl_without (ids : List PageId) (db : Database) :
    Shrinks db (ids.foldl without db) := by
  induction ids generalizing db with
  | nil => exact (Still.refl db).shrinks
  | cons id ids ih =>
    obtain ⟨hfirst, hsub, hin⟩ := shrinks_without id db
    obtain ⟨hrest, hsubs, hins⟩ := ih (db.without id)
    exact ⟨hfirst.trans hrest, hsubs.trans hsub, fun h => hins (hin h)⟩

end Database

namespace Call
open Database

/-- The call may load pages. -/
def Loads : Call → Prop
  | .fetch _ | .insert _ _ _ | .delete _ _ | .update _ _ _ => True
  | .flushPage _ | .flushTransaction _ | .flushAll | .flushList _ | .discard _ | .complete _ _ => False

theorem leaves_evolves {call : Call} (h : call.Loads) (db : Database) :
    Evolves db (call.leaves db) := by
  cases call with
  | fetch id =>
    rw [leaves, perform, after_ignored]
    exact evolves_fetch id db
  | insert txn table t => exact evolves_insertTuple txn table t db
  | delete txn t => exact evolves_deleteTuple txn t db
  | update txn id edit =>
    rw [leaves, perform, after_ignored]
    exact evolves_update txn id edit db
  | flushPage id => exact h.elim
  | flushTransaction txn => exact h.elim
  | flushAll => exact h.elim
  | flushList ids => exact h.elim
  | discard id => exact h.elim
  | complete txn commit => exact h.elim

theorem leaves_shrinks {call : Call} (h : ¬ call.Loads) (db : Database) :
    Shrinks db (call.leaves db) := by
  cases call with
  | fetch id => exact absurd trivial h
  | insert txn table t => exact absurd trivial h
  | delete txn t => exact absurd trivial h
  | update txn id edit => exact absurd trivial h
  | flushPage id =>
    rw [leaves, perform, after_ignored, after_flushPage]
    exact (still_writeBack id db).shrinks
  | flushTransaction txn => exact (still_writeAll _ db).shrinks
  | flushAll => exact (still_writeAll _ db).shrinks
  | flushList ids => exact (still_writeAll ids db).shrinks
  | discard id => exact shrinks_without id db
  | complete txn commit =>
    cases commit with
    | true => exact (still_writeAll _ db).shrinks
    | false =>
      rw [leaves, perform, after_of_ok (complete_abort txn db)]
      exact shrinks_foldl_without _ db

end Call

namespace Database

theorem sameTables_of_moves {db db' : Database} (h : ReflTransGen Move db db') :
    SameTables db db' := by
  induction h with
  | refl => exact .refl db
  | tail _ hmove ih => exact ih.trans hmove.1

theorem inOrder_leaves (call : Call) {db : Database} (h : db.pool.InOrder) :
    (call.leaves db).pool.InOrder ∧ SameTables db (call.leaves db) := by
  by_cases hloads : call.Loads
  · obtain ⟨hin, hmoves⟩ := Call.leaves_evolves hloads db h
    exact ⟨hin, sameTables_of_moves hmoves⟩
  · obtain ⟨hsame, _, hin⟩ := Call.leaves_shrinks hloads db
    exact ⟨hin h, hsame⟩

theorem inOrder_run (calls : List Call) {db : Database} (h : db.pool.InOrder) :
    (run calls db).pool.InOrder ∧ SameTables db (run calls db) := by
  apply run_induction (P := fun db' => db'.pool.InOrder ∧ SameTables db db') _ ⟨h, .refl db⟩
  intro call _ middle hmiddle
  obtain ⟨hin, hsame⟩ := inOrder_leaves call hmiddle.1
  exact ⟨hin, hmiddle.2.trans hsame⟩

theorem fetch_failure {db db' : Database} {id : PageId} {e : Fault} (h : fetch id db = .error e db') :
    db'.pool = db.pool ∧ db'.volume = db.volume := by
  rcases fetch_cases id db with ⟨frame, _, hfetch⟩ | ⟨_, load, middle, _, hfetch⟩ | ⟨e, hfetch⟩ |
    ⟨file, e, hfetch⟩ <;> rw [hfetch] at h <;> cases h
  · exact ⟨rfl, rfl⟩
  · exact ⟨rfl, rfl⟩

/-- The capacity and the order of replacement, as one state of a run shows them. -/
structure Disciplined (db : Database) : Prop where
  /-- The cached pages are the queued ones. -/
  exact : db.pool.frames.keys = db.pool.queue.order
  once : db.pool.queue.order.Nodup
  bounded : db.pool.queue.order.length ≤ db.pool.capacity
  /-- Every transfer of a registered file is counted. -/
  counted : ∀ table file, db.catalog.file table = .ok file → file.serial < db.traffic.length
  hit : ∀ id frame, db.pool.frames.get? id = some frame → fetch id db = .ok frame db
  miss : ∀ id frame db', db.pool.frames.get? id = none → fetch id db = .ok frame db' →
    Admission id db db'
  failure : ∀ id e db', fetch id db = .error e db' → db'.pool = db.pool ∧ db'.volume = db.volume
  /-- The calls that load pages are chains of admissions. -/
  loading : ∀ call : Call, call.Loads → ReflTransGen Move db (call.leaves db)
  /-- The others only take pages out. -/
  other : ∀ call : Call, ¬ call.Loads →
    (call.leaves db).pool.queue.order.Sublist db.pool.queue.order
  /-- Frames that stay through more calls stay in their order. -/
  survivors : ∀ (calls : List Call) (a b : PageId) (fa fa' fb fb' : Frame),
    db.pool.frames.get? a = some fa → (run calls db).pool.frames.get? a = some fa' →
    fa.serial = fa'.serial → db.pool.frames.get? b = some fb →
    (run calls db).pool.frames.get? b = some fb' → fb.serial = fb'.serial →
    (Pool.Before a b db.pool.queue.order ↔ Pool.Before a b (run calls db).pool.queue.order)

/-- From a database whose pool is empty, whatever its capacity, every run of calls keeps the capacity
and the order of replacement. -/
theorem disciplined_run {start : Database} (h : start.Fresh) (calls : List Call) :
    (run calls start).Disciplined ∧ (run calls start).pool.capacity = start.pool.capacity := by
  obtain ⟨hin, hsame⟩ := inOrder_run calls h.inOrder
  refine ⟨?_, hsame.capacity⟩
  constructor
  case exact => exact hin.keys
  case once => exact hin.nodup
  case bounded => exact hin.size_le
  case counted =>
    intro table file hfile
    rw [hsame.files]
    apply h.opened table file
    rwa [← hsame.catalog]
  case hit => exact fun id frame hcached => fetch_of_cached hcached
  case miss => exact fun id frame db' hmiss hfetch => (fetch_admission hin hmiss hfetch).1
  case failure => exact fun id e db' hfetch => fetch_failure hfetch
  case loading => exact fun call hloads => (Call.leaves_evolves hloads _ hin).2
  case other => exact fun call hloads => (Call.leaves_shrinks hloads _).2.1
  case survivors =>
    intro more a b fa fa' fb fb' ha ha' hserial hb hb' hserial'
    rw [hin.before_iff ha hb, (inOrder_run more hin).1.before_iff ha' hb', hserial, hserial']

/-- With one frame and two pages of one slot, a fetch of the first page replaces the second. -/
theorem disciplined_run_one_frame :
    let schema : Schema := ⟨[{ type := .integer }], List.cons_ne_nil _ _⟩
    let start := withTable { pageSize := 8, poolPages := 1 } "t" schema
    let calls : List Call := [.insert ⟨1⟩ (.file "t") ⟨schema, [.int 3], none⟩,
      .insert ⟨1⟩ (.file "t") ⟨schema, [.int 4], none⟩, .fetch ⟨.file "t", 0⟩]
    start.Fresh ∧ (run calls start).pool.queue.order = [⟨.file "t", 0⟩] ∧
      (run calls start).Disciplined ∧ (run calls start).pool.capacity = start.pool.capacity := by
  intro schema start calls
  have hfresh : start.Fresh := fresh_withTable _ _ _
  exact ⟨hfresh, by decide +kernel, disciplined_run hfresh calls⟩

end Database
end RowStore
