import RowStore.Proofs.Deletion
import RowStore.Proofs.Insertion

/-!
# Inserts of a filtered table into itself

An insert whose child filters a scan of the same table goes on reading what it has inserted. Its end does
not come from the rows, which may grow with each step, but from the pages: the scan turns to no page that
the table did not have at the start, and on each of these it takes the rows that are there when it turns
to it. So the insert ends with at most as many copies as these pages have places, and each row that was
there and is accepted has been copied.
-/
namespace RowStore
open Relation Database

namespace Plan

/-- A tuple with these fields satisfies the predicates of the filters. -/
def acceptsRow (plan : Plan) (row : List Field) : Bool := plan.accepts ⟨plan.schema, row, none⟩

theorem accepts_eq_acceptsRow (plan : Plan) (t : Tuple) : plan.accepts t = plan.acceptsRow t.fields := by
  suffices h : ∀ t t' : Tuple, t.fields = t'.fields → plan.accepts t = plan.accepts t' from h _ _ rfl
  intro t t' hfields
  induction plan with
  | filter predicate child ih =>
    have hholds : predicate.holds t = predicate.holds t' := by
      rw [Predicate.holds, Predicate.holds, Tuple.field, Tuple.field, hfields]
    rw [accepts, accepts, hholds, ih]
  | rows _ _ | scan _ _ | aggregate _ _ _ | insert _ _ _ _ | delete _ _ _ => rfl

theorem acceptsRow_filter (predicate : Predicate) (child : Plan) (t : Tuple) :
    (filter predicate child).acceptsRow t.fields =
      (decide (predicate.holds t = .ok true) && child.acceptsRow t.fields) := by
  rw [← accepts_eq_acceptsRow, ← accepts_eq_acceptsRow, accepts]

theorem FilteredScan.agrees {plan : Plan} {file : TableFile} (h : plan.FilteredScan file) :
    plan.schema.Agrees file.schema := by
  induction plan with
  | scan other qualifier =>
    cases h
    exact Schema.agrees_qualify qualifier file.schema
  | filter predicate child ih => exact ih h.2
  | rows _ _ | aggregate _ _ _ | insert _ _ _ _ | delete _ _ _ => exact h.elim

/-- All levels of the chain are open, have looked at no tuple and stand on the cursor. -/
inductive OpenOn (cursor : Cursor) : (plan : Plan) → plan.State → Prop
  | scan (file : TableFile) (qualifier : String) : OpenOn cursor (.scan file qualifier) (some cursor)
  | filter (predicate : Predicate) {child : Plan} {s : child.State} (below : OpenOn cursor child s) :
      OpenOn cursor (.filter predicate child) (Lookahead.opened s)

theorem FilteredScan.start_ok {plan : Plan} {file : TableFile} (h : plan.FilteredScan file) (db : Database) :
    ∃ s, plan.source.start (plan.initial, db) = .ok () (s, db) ∧
      plan.OpenOn (Cursor.start file db.volume) s := by
  induction plan with
  | scan other qualifier =>
    cases h
    exact ⟨_, rfl, .scan file qualifier⟩
  | filter predicate child ih =>
    obtain ⟨s, hstart, hs⟩ := ih h.2
    exact ⟨_, Source.open_of_start hstart, .filter predicate hs⟩
  | rows _ _ | aggregate _ _ _ | insert _ _ _ _ | delete _ _ _ => exact h.elim

end Plan

/-- The loop over a filtered scan of the file has inserted some rows, and of those that were read others
wait. The ones inserted and the accepted ones that wait are the copies from the pages that were read. -/
structure Feeding (base : Database) (sheets : Sheets) (file : TableFile) (accepts : List Field → Bool)
    (inserted waiting : List (List Field)) (cursor : Cursor) (db : Database) : Prop where
  filled : Filled base sheets file ((sheets file.id).insertAll file.slotCount inserted) db
  bounded : (sheets file.id).Bounded file.slotCount
  stands : cursor.Stands file (sheets file.id).pages
  copied : inserted ++ waiting.filter accepts =
    (sheets file.id).copies accepts file.slotCount cursor.nextPage

namespace Feeding
variable {base db : Database} {sheets : Sheets} {file : TableFile} {accepts : List Field → Bool}
  {inserted waiting : List (List Field)} {cursor : Cursor}

theorem next (h : Feeding base sheets file accepts inserted cursor.bufferedRows cursor db)
    (hfile : base.catalog.file file.id = .ok file) :
    ∃ answer cursor' db', Cursor.next (cursor, db) = .ok answer (cursor', db') ∧
      Feeding base sheets file accepts inserted ((answer.map Tuple.fields).toList ++ cursor'.bufferedRows)
        cursor' db' ∧
      (answer = none → cursor'.nextPage = (sheets file.id).pages ∧ cursor'.bufferedRows = []) ∧
      ∀ t ∈ answer, t.schema.Agrees file.schema ∧ file.Holds t.fields := by
  have hregistered : db.catalog.file file.id = .ok file := by rwa [h.filled.tables.catalog]
  have hshows := h.filled.shown file hregistered
  rw [Sheets.put_self] at hshows
  have hpages := Sheet.pages_le_insertAll file.slotCount_pos h.bounded inserted
  have hturn (page : Nat) (hbefore : inserted ++ [].filter accepts =
      (sheets file.id).copies accepts file.slotCount page) :
      inserted ++ (((sheets file.id).insertAll file.slotCount inserted).pageRows file.slotCount page).filter
        accepts = (sheets file.id).copies accepts file.slotCount (page + 1) := by
    rw [List.filter_nil, List.append_nil] at hbefore
    rw [Sheet.copies_succ, ← hbefore]
  obtain ⟨answer, cursor', db', hnext, hpaging, hstands, hcopied, hend⟩ :=
    Cursor.next_turns (motive := fun page waiting =>
        inserted ++ waiting.filter accepts = (sheets file.id).copies accepts file.slotCount page)
      hturn h.stands h.filled.ready h.filled.small hregistered hshows hpages h.copied
  exact ⟨answer, cursor', db', hnext, ⟨h.filled.paging hpaging, h.bounded, hstands, hcopied⟩, hend⟩

theorem skip {row : List Field} (h : Feeding base sheets file accepts inserted (row :: waiting) cursor db)
    (hrow : accepts row = false) : Feeding base sheets file accepts inserted waiting cursor db := by
  have hcopied := h.copied
  rw [List.filter_cons_of_neg (by rw [hrow]; exact Bool.false_ne_true)] at hcopied
  exact ⟨h.filled, h.bounded, h.stands, hcopied⟩

theorem insert {t : Tuple} (h : Feeding base sheets file accepts inserted (t.fields :: waiting) cursor db)
    (haccepted : accepts t.fields = true) (hfile : base.catalog.file file.id = .ok file)
    (hbound : (sheets file.id).pages * file.slotCount < 2147483648) (hvalid : t.Valid)
    (hagrees : t.schema.Agrees file.schema) (txn : TransactionId) :
    ∃ db', Source.countStep (insertTuple txn file.id) t (inserted.length, db) =
        .ok () ((inserted ++ [t.fields]).length, db') ∧
      Feeding base sheets file accepts (inserted ++ [t.fields]) waiting cursor db' := by
  have hslots : 0 < file.slotCount := file.slotCount_pos
  have hcopied := h.copied
  rw [List.filter_cons_of_pos haccepted, List.append_cons] at hcopied
  have hcount : (inserted ++ [t.fields]).length ≤ (sheets file.id).pages * file.slotCount := by
    have hread := Nat.mul_le_mul_right file.slotCount (Nat.le.intro h.stands.left)
    have hcopies := (sheets file.id).length_copies_le accepts file.slotCount cursor.nextPage
    rw [← hcopied, List.length_append] at hcopies
    omega
  have hpages := Sheet.pages_insertAll_le hslots h.bounded (inserted ++ [t.fields])
  have htotal := Nat.le_mul_of_pos_right (sheets file.id).pages hslots
  have hsize : UInt32.size = 4294967296 := rfl
  have hsheet : ((sheets file.id).insertAll file.slotCount inserted).insert file.slotCount t.fields =
      (sheets file.id).insertAll file.slotCount (inserted ++ [t.fields]) := by
    rw [Sheet.insertAll_append]
    rfl
  rw [List.length_append, List.length_singleton] at hcount hpages ⊢
  obtain ⟨db', hstep, hfilled⟩ := h.filled.insert hfile hvalid hagrees txn
    (by omega : inserted.length + 1 ≤ 2147483647) (by rw [hsheet]; omega)
  rw [hsheet] at hfilled
  exact ⟨db', hstep, hfilled, h.bounded, h.stands, hcopied⟩

end Feeding

namespace Plan

/-- The chain is open on a cursor, and the rows that the cursor buffers wait. -/
def Feeds (base : Database) (sheets : Sheets) (file : TableFile) (accepts : List Field → Bool)
    (inserted : List (List Field)) (plan : Plan) (x : Lookahead plan.State × Database) : Prop :=
  ∃ cursor s, x.1 = .opened s ∧ plan.OpenOn cursor s ∧
    Feeding base sheets file accepts inserted cursor.bufferedRows cursor x.2

/-- Asked for a tuple, the chain has come to the end of the pages or has a tuple that waits. -/
inductive Pulled (base : Database) (sheets : Sheets) (file : TableFile) (accepts : List Field → Bool)
    (inserted : List (List Field)) (plan : Plan) :
    EStateM.Result Fault (plan.State × Database) (Option Tuple) → Prop
  | ended {cursor : Cursor} {s : plan.State} {db : Database} (on : plan.OpenOn cursor s)
      (last : cursor.nextPage = (sheets file.id).pages)
      (feeding : Feeding base sheets file accepts inserted [] cursor db) :
      Pulled base sheets file accepts inserted plan (.ok none (s, db))
  | took {t : Tuple} {cursor : Cursor} {s : plan.State} {db : Database} (on : plan.OpenOn cursor s)
      (feeding : Feeding base sheets file accepts inserted (t.fields :: cursor.bufferedRows) cursor db)
      (schema : t.schema = plan.schema) (holds : file.Holds t.fields)
      (accepted : plan.acceptsRow t.fields = true) :
      Pulled base sheets file accepts inserted plan (.ok (some t) (s, db))

variable {base : Database} {sheets : Sheets} {file : TableFile} {accepts : List Field → Bool}
  {inserted : List (List Field)}

theorem Feeds.tryNext {predicate : Predicate} {child : Plan}
    (hfield : predicate.field < file.schema.fieldCount)
    (haccepts : ∀ row, accepts row = true → (filter predicate child).acceptsRow row = true)
    (hpull : ∀ {cursor s db}, child.OpenOn cursor s →
      Feeding base sheets file accepts inserted cursor.bufferedRows cursor db →
        child.Pulled base sheets file accepts inserted (child.source.pull (s, db)))
    {x : Lookahead child.State × Database} (hx : child.Feeds base sheets file accepts inserted x) :
    Sum.elim ((filter predicate child).Pulled base sheets file accepts inserted)
      (child.Feeds base sheets file accepts inserted) (child.source.tryNext predicate.holds x) := by
  obtain ⟨look, db⟩ := x
  obtain ⟨cursor, s, rfl, hon, hfeeding⟩ := hx
  have hpulled := hpull hon hfeeding
  generalize hrun : child.source.pull (s, db) = result at hpulled
  cases hpulled with
  | ended hon last hfeeding =>
    rw [Source.tryNext, Source.next_of_pull hrun]
    exact .ended (.filter predicate hon) last hfeeding
  | @took t cursor s' db' hon hfeeding hschema hholds haccepted =>
    rw [Source.tryNext, Source.next_of_pull hrun]
    dsimp only
    have hrow := acceptsRow_filter predicate child t
    rw [haccepted, Bool.and_true] at hrow
    cases hmatch : predicate.holds t with
    | error e =>
      have hmissing := (predicate.holds_eq_error_iff t).mp ⟨e, hmatch⟩
      rw [hholds.1, Schema.types, List.length_map] at hmissing
      exact absurd hfield (Nat.not_lt_of_le hmissing)
    | ok found =>
      rw [hmatch] at hrow
      cases found with
      | true => exact .took (.filter predicate hon) hfeeding hschema hholds hrow
      | false =>
        refine ⟨cursor, s', rfl, hon, hfeeding.skip ?_⟩
        rw [Bool.eq_false_iff]
        intro htrue
        cases hrow.symm.trans (haccepts _ htrue)

theorem FilteredScan.pulled {plan : Plan} (hplan : plan.FilteredScan file)
    (hfile : base.catalog.file file.id = .ok file)
    (haccepts : ∀ row, accepts row = true → plan.acceptsRow row = true) {cursor : Cursor} {s : plan.State}
    {db : Database} (hon : plan.OpenOn cursor s)
    (h : Feeding base sheets file accepts inserted cursor.bufferedRows cursor db) :
    plan.Pulled base sheets file accepts inserted (plan.source.pull (s, db)) := by
  induction plan generalizing cursor db with
  | scan other qualifier =>
    cases hplan
    cases hon
    have hschema : (file.schema.qualify qualifier).Agrees file.schema := Schema.agrees_qualify _ _
    obtain ⟨answer, cursor', db', hnext, hfeeding, hend, hread⟩ := h.next hfile
    have hpull : (Plan.scan file qualifier).source.pull (some cursor, db) =
        Source.pullScan (file.schema.qualify qualifier) (some cursor, db) := rfl
    rw [hpull, Source.pullScan, hnext]
    cases answer with
    | none =>
      obtain ⟨hlast, hnone⟩ := hend rfl
      rw [hnone] at hfeeding
      exact .ended (.scan file qualifier) hlast hfeeding
    | some t =>
      obtain ⟨hagrees, hholds⟩ := hread t rfl
      have hreset : (file.schema.qualify qualifier).Agrees t.schema := hschema.trans hagrees.symm
      simp only [Tuple.resetSchema, if_pos hreset]
      exact .took (t := { t with schema := file.schema.qualify qualifier }) (.scan file qualifier) hfeeding
        rfl hholds rfl
  | filter predicate child ih =>
    cases hon with
    | filter _ below =>
      have hchild (row : List Field) (hrow : accepts row = true) : child.acceptsRow row = true := by
        have hall := haccepts row hrow
        have heq := acceptsRow_filter predicate child ⟨child.schema, row, none⟩
        rw [hall, eq_comm, Bool.and_eq_true] at heq
        exact heq.2
      refine child.source.firstMatch_rule predicate.holds
        (fun x hx => Feeds.tryNext hplan.1 haccepts (fun hon hfeeding => ih hplan.2 hchild hon hfeeding) hx)
        ⟨cursor, _, rfl, below, h⟩
  | rows _ _ | aggregate _ _ _ | insert _ _ _ _ | delete _ _ _ => exact hplan.elim

/-- The loop is about to take a tuple of the chain, and has counted what it has inserted. -/
def Copies (base : Database) (sheets : Sheets) (file : TableFile) (plan : Plan)
    (x : (Lookahead plan.State × Nat) × Database) : Prop :=
  ∃ inserted, x.1.2 = inserted.length ∧
    plan.Feeds base sheets file plan.acceptsRow inserted (x.1.1, x.2)

/-- The loop has ended, and all copies are in the table. -/
inductive CopiesEnd (base : Database) (sheets : Sheets) (file : TableFile) (plan : Plan)
    (copies : List (List Field)) :
    EStateM.Result Fault ((Lookahead plan.State × Nat) × Database) Unit → Prop
  | mk {look : Lookahead plan.State} {db : Database}
      (filled : Filled base sheets file ((sheets file.id).insertAll file.slotCount copies) db) :
      CopiesEnd base sheets file plan copies (.ok () ((look, copies.length), db))

theorem Copies.feed {plan : Plan} (hplan : plan.FilteredScan file)
    (hfile : base.catalog.file file.id = .ok file)
    (hbound : (sheets file.id).pages * file.slotCount < 2147483648) (txn : TransactionId)
    {x : (Lookahead plan.State × Nat) × Database} (hx : plan.Copies base sheets file x) :
    Sum.elim (plan.CopiesEnd base sheets file
        ((sheets file.id).copies plan.acceptsRow file.slotCount (sheets file.id).pages))
      (plan.Copies base sheets file)
      (plan.source.feed (Source.countStep (insertTuple txn file.id)) x) := by
  obtain ⟨⟨look, n⟩, db⟩ := x
  obtain ⟨inserted, rfl, cursor, s, rfl, hon, hfeeding⟩ := hx
  have hpulled := hplan.pulled hfile (fun _ => id) hon hfeeding
  generalize hrun : plan.source.pull (s, db) = result at hpulled
  cases hpulled with
  | ended hon last hfeeding =>
    have hcopied := hfeeding.copied
    rw [last, List.filter_nil, List.append_nil] at hcopied
    rw [Source.feed_of_end _ (Source.next_of_pull hrun), ← hcopied]
    exact .mk hfeeding.filled
  | took hon hfeeding hschema hholds haccepted =>
    have hagrees := hplan.agrees
    rw [← hschema] at hagrees
    obtain ⟨db', hstep, hfeeding'⟩ := hfeeding.insert haccepted hfile hbound
      (Tuple.valid_of_holds hholds hagrees) hagrees txn
    rw [Source.feed_of_ok (Source.next_of_pull hrun) hstep]
    exact ⟨_, rfl, _, _, rfl, hon, hfeeding'⟩

end Plan

namespace Database

theorem Ready.insert_filteredScan {db : Database} (h : db.Ready) (hsmall : db.Small) {sheets : Sheets}
    (hm : Matches db sheets) {file : TableFile} (hfile : db.catalog.file file.id = .ok file) {plan : Plan}
    (hplan : plan.FilteredScan file) (hbound : (sheets file.id).pages * file.slotCount < 2147483648)
    (txn : TransactionId) {copies : List (List Field)}
    (hcopies : copies = (sheets file.id).copies plan.acceptsRow file.slotCount (sheets file.id).pages) :
    (Plan.insert txn file.id plan).Changes db sheets
      (sheets.put file.id ((sheets file.id).insertAll file.slotCount copies)) copies.length := by
  have hshows := hm file hfile
  obtain ⟨s, hstart, hon⟩ := hplan.start_ok db
  have hcursor := hshows.start_eq (hsmall _ _ hfile)
  have hfeeding : Feeding db sheets file plan.acceptsRow [] [] (Cursor.start file db.volume) db := by
    constructor
    case filled => exact ⟨h, hsmall, .refl db, by rwa [Sheet.insertAll, List.foldl_nil, Sheets.put_eq_self]⟩
    case bounded => exact hshows.bounded h.coherent hfile
    case stands =>
      rw [hcursor]
      exact Cursor.stands_start file _
    case copied =>
      rw [hcursor]
      rfl
  have hends := plan.source.forEach_rule (Source.countStep (insertTuple txn file.id))
    (fun x hx => Plan.Copies.feed hplan hfile hbound txn hx)
    (s := ((.opened s, 0), db)) ⟨[], rfl, _, s, rfl, hon, hfeeding⟩
  rw [← hcopies] at hends
  generalize hloop : plan.source.forEach (Source.countStep (insertTuple txn file.id))
    ((.opened s, 0), db) = result at hends
  cases hends with
  | mk hfilled =>
    exact Plan.changes_of_respondAll (Source.open_change (Source.open_of_start hstart))
      (fun demands => Source.respondAll_change hloop demands) (h.looksLike hsmall hm)
      (hfilled.ready.looksLike hfilled.small hfilled.shown)

/-- An insert of a filtered table into itself comes to its end, even where it reads its own copies. It has
copied each accepted row of the table then, and has made no more copies than the table had places. The
pages can be written, as all rows fit. -/
theorem insert_filtered_itself {db : Database} (h : db.Regular) (hroom : 0 < db.pool.capacity)
    (hfits : db.RowsFit) {file : TableFile} (hfile : db.catalog.file file.id = .ok file)
    (hothers : ∀ table ≠ file.id, db.SmallTable table) {plan : Plan} (hplan : plan.FilteredScan file)
    (txn : TransactionId) :
    let sheet := db.sheets file.id
    let copies := sheet.copies plan.acceptsRow file.slotCount sheet.pages
    let after := sheet.insertAll file.slotCount copies
    sheet.pages * file.slotCount < 2147483648 →
      (Plan.insert txn file.id plan).Changes db db.sheets (db.sheets.put file.id after) copies.length ∧
      ((sheet.rows file.slotCount).filter plan.acceptsRow).Sublist copies ∧
      (∀ row ∈ copies, plan.acceptsRow row = true) ∧
      copies.length ≤ sheet.pages * file.slotCount ∧
      (∀ place row, sheet.cells.get? place = some row → after.cells.get? place = some row) ∧
      (after.rows file.slotCount).Perm (copies ++ sheet.rows file.slotCount) := by
  intro sheet copies after hbound
  have hslots : 0 < file.slotCount := file.slotCount_pos
  have hshown := h.coherent.shows_sheets
  have hsmall : db.Small := by
    intro table other hother
    by_cases htable : table = file.id
    · subst htable
      cases hfile.symm.trans hother
      have hpages : sheet.pages = file.pageTotal db.volume := (hshown file hfile).pages
      have htotal := Nat.le_mul_of_pos_right sheet.pages hslots
      have hsize : UInt32.size = 4294967296 := rfl
      omega
    · exact hothers table htable other hother
  have hbounded : sheet.Bounded file.slotCount := (hshown file hfile).bounded h.coherent hfile
  exact ⟨(h.ready hroom hfits).insert_filteredScan hsmall hshown hfile hplan hbound txn rfl,
    Sheet.sublist_copies hslots hbounded plan.acceptsRow sheet.pages,
    fun row hrow => Sheet.accepts_of_mem_copies hrow,
    sheet.length_copies_le plan.acceptsRow file.slotCount sheet.pages,
    fun place row hrow => Sheet.get?_insertAll_of_some hslots hbounded copies hrow,
    Sheet.perm_insertAll hslots hbounded copies⟩

/-- With one frame and pages of two slots, the copy of the first row comes to the page of the third before
that is read, and is copied too. The second row is not accepted. -/
theorem insert_filtered_itself_reads_copy :
    let schema : Schema := ⟨[{ type := .integer, name := some "a" }], List.cons_ne_nil _ _⟩
    let file : TableFile := ⟨0, ⟨"t", 9⟩, schema, by decide, by decide⟩
    let start := withTable { pageSize := 9, poolPages := 1 } "t" schema
    let insert (value : Int32) : Call := .insert ⟨1⟩ (.file "t") ⟨schema, [.int value], none⟩
    let calls : List Call := [insert 1, insert 2, insert 3]
    let plan : Plan := .filter ⟨0, .lt, .int 9⟩ (.filter ⟨0, .ne, .int 2⟩ (.scan file "x"))
    let db := run calls start
    let sheet := db.sheets file.id
    let copies := sheet.copies plan.acceptsRow file.slotCount sheet.pages
    let after := sheet.insertAll file.slotCount copies
    db.Regular ∧ 0 < db.pool.capacity ∧ db.RowsFit ∧ db.catalog.file file.id = .ok file ∧
      (∀ table ≠ file.id, db.SmallTable table) ∧ plan.FilteredScan file ∧
      sheet.pages * file.slotCount < 2147483648 ∧
      sheet.rows file.slotCount = [[.int 1], [.int 2], [.int 3]] ∧
      copies = [[.int 1], [.int 3], [.int 1]] ∧
      (Plan.insert ⟨2⟩ file.id plan).Changes db db.sheets (db.sheets.put file.id after) copies.length ∧
      ((sheet.rows file.slotCount).filter plan.acceptsRow).Sublist copies ∧
      copies.length ≤ sheet.pages * file.slotCount := by
  intro schema file start insert calls plan db sheet copies after
  have hcalls : ∀ call ∈ calls, call.Plain := by
    have hvalid (value : Int32) : (⟨schema, [.int value], none⟩ : Tuple).Valid := by
      simp [Tuple.Valid, schema, Schema.types, Field.fits]
    simp [calls, insert, Call.Plain, hvalid]
  have hsmall : StaysSmall calls start := by decide +kernel
  have hdb : run calls start = db := rfl
  obtain ⟨hregular, hroom, hpages, hfits, -⟩ := regular_withTable (by decide) "t" schema hcalls hsmall hdb
  have hfile : db.catalog.file file.id = .ok file := by decide +kernel
  have hothers (table : TableId) (_ : table ≠ file.id) : db.SmallTable table := hpages table
  have hplan : plan.FilteredScan file := ⟨by decide, by decide, rfl⟩
  have hbound : sheet.pages * file.slotCount < 2147483648 := by decide +kernel
  obtain ⟨hchanges, hcopied, _, hlength, _⟩ :=
    insert_filtered_itself hregular hroom hfits hfile hothers hplan ⟨2⟩ hbound
  exact ⟨hregular, hroom, hfits, hfile, hothers, hplan, hbound, by decide +kernel, by decide +kernel,
    hchanges, hcopied, hlength⟩

/-- A page of another table that cannot be written is in the only frame. The insert opens, and when a row is
asked for it cannot read its table, so it comes to no end of its scan. -/
theorem insert_fails_behind_wide_text :
    let schema : Schema := ⟨[{ type := .integer, name := some "a" }], List.cons_ne_nil _ _⟩
    let file : TableFile := ⟨1, ⟨"t.dat", 11⟩, schema, by decide, by decide⟩
    let plan : Plan := .insert ⟨2⟩ file.id (.filter ⟨0, .gt, .int 1⟩ (.scan file "t"))
    behindWideText.catalog.file file.id = .ok file ∧
      behindWideText.sheets file.id = ⟨1, ⟨[((0, 0), [.int 7])]⟩⟩ ∧
      outcome (Operator.open (.ofPlan plan, behindWideText)) = .ok () ∧
      outcome ((Operator.open >>= fun _ => Operator.next) (.ofPlan plan, behindWideText)) =
        .error (.error (.typeMismatch 0 "CHAR(1)" "CHAR(3)")) := by
  intro schema file plan
  exact ⟨by decide +kernel, by decide +kernel, by decide +kernel, by decide +kernel⟩

end Database
end RowStore
