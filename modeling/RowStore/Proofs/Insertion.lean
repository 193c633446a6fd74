import RowStore.Proofs.DetachedPlans
import RowStore.Proofs.SelfInsertion

/-!
# Inserts of detached plans

An insert stores each tuple of its child before it asks for the next one. If the child does not read the
table, it yields what it yields when nothing is inserted, and the rows go to the sheet of the table in
that order. The main statement says where each row comes to, and that nothing else changes, whatever the
pool evicts meanwhile and whichever demands follow.
-/
namespace RowStore
open Relation Database

namespace Source
variable {σ : Type} {source : Source σ}

/-- One after the other, the operator gives the tuples, and then it ends. -/
inductive Gives (source : Source σ) : Lookahead σ × Database → List Tuple → Prop
  | done {x y : Lookahead σ × Database} (hnext : source.next x = .ok none y) : Gives source x []
  | more {x y : Lookahead σ × Database} {t : Tuple} {ts : List Tuple}
      (hnext : source.next x = .ok (some t) y) (hrest : Gives source y ts) : Gives source x (t :: ts)

theorem gives_of_collect {s s' : (Lookahead σ × List Tuple) × Database}
    (h : source.forEach Operator.collect s = .ok () s') :
    ∃ ts, s'.1.2 = s.1.2 ++ ts ∧ source.Gives (s.1.1, s.2) ts := by
  refine forEach_success
    (motive := fun s s' => ∃ ts, s'.1.2 = s.1.2 ++ ts ∧ source.Gives (s.1.1, s.2) ts) ?_ ?_ h
  · intro x y before hnext
    exact ⟨[], (List.append_nil before).symm, .done hnext⟩
  · intro x y before after t db z hnext hcollect ih
    cases hcollect
    obtain ⟨ts, hall, hgives⟩ := ih
    refine ⟨t :: ts, ?_, .more hnext hgives⟩
    rw [hall, List.append_assoc, List.singleton_append]

end Source

theorem Operator.of_run_ok {α : Type} {operation : (plan : Plan) → Run (Lookahead plan.State) α}
    {plan : Plan} {look : Lookahead plan.State} {db : Database} {a : α} {last : Operator × Database}
    (h : run operation (⟨plan, look⟩, db) = .ok a last) :
    ∃ look' db', last = (⟨plan, look'⟩, db') ∧ operation plan (look, db) = .ok a (look', db') := by
  simp only [run] at h
  split at h
  · next hoperation =>
    cases h
    exact ⟨_, _, rfl, hoperation⟩
  · cases h

namespace Plan
variable {plan child : Plan} {db : Database} {ts : List Tuple}

/-- Opened on the database and drained, the plan yields the tuples and no error. -/
def DrainsTo (plan : Plan) (db : Database) (ts : List Tuple) : Prop :=
  ∃ opened operator last, Operator.open (.ofPlan plan, db) = .ok () opened ∧
    Operator.drain ((opened.1, []), opened.2) = .ok () ((operator, ts), last)

theorem DrainsTo.gives (h : plan.DrainsTo db ts) :
    ∃ s opened, plan.source.start (plan.initial, db) = .ok () (s, opened) ∧
      plan.source.Gives (.opened s, opened) ts := by
  obtain ⟨opened, operator, last, hopen, hdrain⟩ := h
  obtain ⟨look, middle, rfl, hopened⟩ := Operator.of_run_ok hopen
  obtain ⟨s, db', heq, hstart⟩ := Source.open_eq_ok hopened
  cases heq
  simp only [Operator.drain] at hdrain
  split at hdrain
  · next hloop =>
    cases hdrain
    obtain ⟨taken, htaken, hgives⟩ := Source.gives_of_collect hloop
    have hall : ts = taken := htaken
    subst hall
    exact ⟨s, middle, hstart, hgives⟩
  · cases hdrain

theorem drainsTo_of_result (hready : db.Ready) (hsmall : db.Small) {sheets : Sheets}
    (hm : Matches db sheets) (hchain : plan.Chain db.catalog) (hcountable : plan.Countable sheets)
    (hresult : plan.result sheets = .ok ts) : plan.DrainsTo db ts := by
  obtain ⟨e⟩ := enumerated hready hsmall hm hchain hcountable hresult
  have hkeeps := Keeps.refl hready hsmall fun _ => True
  obtain ⟨s, opened, hopen, hpages, hs⟩ := e.open_ok hkeeps
  obtain ⟨s', taken, last, hloop, _, htaken⟩ :=
    e.forEach_ok Operator.collect (fun rest taken _ => taken ++ rest = ts) (fun _ hinv _ => hinv)
      (fun {t rest taken reads db} hkept _ hinv => by
        refine ⟨taken ++ [t], db, rfl, hkept, ?_⟩
        rwa [List.append_assoc, List.singleton_append])
      hs ((hkeeps.paging hpages).mono fun _ _ => trivial) (List.nil_append ts)
  rw [List.append_nil] at htaken
  subst htaken
  refine ⟨(⟨plan, .opened s⟩, opened), ⟨plan, .opened s'⟩, last, Operator.run_of_ok hopen, ?_⟩
  simp only [Operator.drain, hloop]

theorem insertInto_eq (txn : TransactionId) (child : Plan) {file : TableFile}
    (hfile : db.catalog.file file.id = .ok file) : insertInto txn file.id child db =
      if child.schema.Agrees file.schema then .ok (.insert txn file.id child) db
      else .error (.error (.schemaMismatch file.schema.text child.schema.text)) db := by
  rw [insertInto, Db.bind_run, fileOf_of_registered hfile]
  by_cases hagrees : child.schema.Agrees file.schema
  · simp only [if_pos hagrees]
    rfl
  · simp only [if_neg hagrees]
    rfl

theorem insertInto_eq_ok {txn : TransactionId} {file : TableFile} {last : Database}
    (hfile : db.catalog.file file.id = .ok file) (h : insertInto txn file.id child db = .ok plan last) :
    plan = .insert txn file.id child ∧ child.schema.Agrees file.schema := by
  rw [insertInto_eq txn child hfile] at h
  split at h
  · next hagrees =>
    cases h
    exact ⟨rfl, hagrees⟩
  · cases h

end Plan

theorem Sheet.insertedAt_take {sheet : Sheet} {slots : Nat} (hslots : 0 < slots)
    (hbounded : sheet.Bounded slots) {ts : List Tuple} {i : Nat} {t : Tuple} (ht : ts[i]? = some t) :
    ∃ place, (sheet.insertAll slots ((ts.take i).map Tuple.fields)).InsertedAt
      (sheet.insertAll slots ((ts.take (i + 1)).map Tuple.fields)) slots t.fields place := by
  rw [List.take_add_one, ht, Option.toList_some, List.map_append, Sheet.insertAll_append]
  exact insertedAt hslots (bounded_insertAll hslots hbounded _) t.fields

/-- The file has that sheet now, and the other tables have theirs. -/
structure Filled (base : Database) (sheets : Sheets) (file : TableFile) (sheet : Sheet) (db : Database) :
    Prop where
  ready : db.Ready
  small : db.Small
  tables : SameTables base db
  shown : Matches db (sheets.put file.id sheet)

namespace Filled
variable {base db db' : Database} {sheets : Sheets} {file : TableFile} {sheet : Sheet}

theorem paging (h : Filled base sheets file sheet db) (hpages : ReflTransGen Paging db db') :
    Filled base sheets file sheet db' := by
  obtain ⟨hready, hsame⟩ := h.ready.pages hpages
  exact ⟨hready, h.small.of_sameRows h.ready.coherent hsame, h.tables.trans hsame.tables,
    h.shown.of_sameRows hsame⟩

theorem keepsOthers (h : Filled base sheets file sheet db) (hcoherent : base.Coherent)
    (hm : Matches base sheets) : base.KeepsOthers file.id db :=
  keepsOthers_of_matches hcoherent hm h.ready h.small h.tables h.shown

theorem bounded (h : Filled base sheets file sheet db) (hfile : base.catalog.file file.id = .ok file) :
    sheet.Bounded file.slotCount := by
  have hregistered : db.catalog.file file.id = .ok file := by rwa [h.tables.catalog]
  have hshows := h.shown file hregistered
  rw [Sheets.put_self] at hshows
  exact hshows.bounded h.ready.coherent hregistered

theorem insert (h : Filled base sheets file sheet db) (hfile : base.catalog.file file.id = .ok file)
    {t : Tuple} (hvalid : t.Valid) (hagrees : t.schema.Agrees file.schema) (txn : TransactionId) {n : Nat}
    (hcount : n + 1 ≤ 2147483647)
    (hpages : (sheet.insert file.slotCount t.fields).pages < UInt32.size) :
    ∃ db', Source.countStep (insertTuple txn file.id) t (n, db) = .ok () (n + 1, db') ∧
      Filled base sheets file (sheet.insert file.slotCount t.fields) db' := by
  have hregistered : db.catalog.file file.id = .ok file := by rwa [h.tables.catalog]
  rcases h.ready.insert_cases h.small h.shown txn hregistered hvalid hagrees with
    ⟨db', hinsert, hready, hsmall, htables, hshown⟩ | ⟨e, db', _, hfree, hlimit⟩
  · rw [Sheets.put_self, Sheets.put_put] at hshown
    refine ⟨db', ?_, hready, hsmall, h.tables.trans htables, hshown⟩
    simp only [Source.countStep, hinsert, if_pos hcount]
  · rw [Sheets.put_self] at hfree hlimit
    rw [Sheet.insert, hfree] at hpages
    exact absurd hpages (Nat.not_lt_of_le hlimit)

end Filled

namespace Source
variable {σ : Type} {source : Source σ} {agree : σ → σ → Prop} {base : Database} {sheets : Sheets}
  {file : TableFile} {schema : Schema}

/-- The loop of an insert takes the tuples that the source gives when nothing is inserted, and they fill
the sheet of the file. -/
theorem Mirrors.insert_all (h : source.Mirrors base file.id schema agree) (hcoherent : base.Coherent)
    (hm : Matches base sheets) (hfile : base.catalog.file file.id = .ok file)
    (hschema : schema.Agrees file.schema) (txn : TransactionId) {x : Lookahead σ × Database}
    {ts : List Tuple} (hgives : source.Gives x ts) (hvalid : ∀ t ∈ ts, t.Valid) (hleft : base.KeepsOthers file.id x.2)
    {look : Lookahead σ} (hlook : x.1.Alike agree look) {sheet : Sheet} {db : Database}
    (hfilled : Filled base sheets file sheet db) {n : Nat} (hcount : n + ts.length ≤ 2147483647)
    (hpages : (sheet.insertAll file.slotCount (ts.map Tuple.fields)).pages < UInt32.size) :
    ∃ look' db', source.forEach (countStep (insertTuple txn file.id)) ((look, n), db) =
        .ok () ((look', n + ts.length), db') ∧
      Filled base sheets file (sheet.insertAll file.slotCount (ts.map Tuple.fields)) db' := by
  -- The induction is on the run that inserts nothing; each of its tuples is taken over the filled sheet too.
  induction hgives generalizing look sheet db n with
  | done hnext =>
    obtain ⟨⟨look', db'⟩, hnext', hmirrored⟩ :=
      h.next hlook hleft (hfilled.keepsOthers hcoherent hm) hnext
    refine ⟨look', db', ?_, hfilled.paging hmirrored.right⟩
    rw [forEach_eq, feed_of_end _ hnext']
    rfl
  | @more x y t ts hnext _ ih =>
    rw [List.map_cons, Sheet.insertAll_cons] at hpages ⊢
    rw [List.length_cons] at hcount ⊢
    obtain ⟨⟨look₁, db₁⟩, hnext', hmirrored⟩ :=
      h.next hlook hleft (hfilled.keepsOthers hcoherent hm) hnext
    have hread := hfilled.paging hmirrored.right
    have hagrees := hmirrored.agrees t rfl
    have hslots : 0 < file.slotCount := file.slotCount_pos
    obtain ⟨place, hinserted⟩ := Sheet.insertedAt hslots (hfilled.bounded hfile) t.fields
    have hmore := Sheet.pages_le_insertAll hslots (hinserted.bounded (hfilled.bounded hfile))
      (ts.map Tuple.fields)
    obtain ⟨db₂, hstep, hfilled₂⟩ := hread.insert hfile (hvalid t List.mem_cons_self) (hagrees.trans hschema) txn
      (by omega : n + 1 ≤ 2147483647) (Nat.lt_of_le_of_lt hmore hpages)
    obtain ⟨look', db', hrest, hlast⟩ := ih (fun other hmem => hvalid other (List.mem_cons_of_mem _ hmem))
      (hleft.paging hmirrored.left) hmirrored.alike hfilled₂ (by omega : n + 1 + ts.length ≤ 2147483647) hpages
    refine ⟨look', db', ?_, hlast⟩
    rw [forEach_eq, feed_of_ok hnext' hstep, Nat.add_comm ts.length 1, ← Nat.add_assoc]
    exact hrest

end Source

namespace Database

/-- An insert of a detached chain answers the number of tuples that the chain yields alone, and leaves
their rows in the table, if they fit. -/
theorem Ready.insert_chain {db : Database} (h : db.Ready) (hsmall : db.Small) {sheets : Sheets}
    (hm : Matches db sheets) {file : TableFile} (hfile : db.catalog.file file.id = .ok file) {child : Plan}
    (hchain : child.Chain db.catalog) (hdetached : child.Detached file.id)
    (hschema : child.schema.Agrees file.schema) (txn : TransactionId) {ts : List Tuple}
    (hts : child.DrainsTo db ts) (hvalid : ∀ t ∈ ts, t.Valid) (hcount : ts.length ≤ 2147483647)
    (hpages : ((sheets file.id).insertAll file.slotCount (ts.map Tuple.fields)).pages < UInt32.size) :
    (Plan.insert txn file.id child).Changes db sheets
      (sheets.put file.id ((sheets file.id).insertAll file.slotCount (ts.map Tuple.fields))) ts.length := by
  obtain ⟨agree, hmirrors, hstarted⟩ := Plan.mirrors h hsmall hchain hdetached
  obtain ⟨s, opened, hstart, hgives⟩ := hts.gives
  have hopen : child.source.open ({ inner := child.initial }, db) = .ok () (.opened s, opened) :=
    Source.open_of_start hstart
  have hfilled : Filled db sheets file (sheets file.id) db :=
    ⟨h, hsmall, .refl db, by rwa [Sheets.put_eq_self]⟩
  have hfilled' := hfilled.paging ((Plan.pages hchain).open h.coherent hopen)
  have hopened : LooksLike opened sheets := by
    have hshown := hfilled'.shown
    rw [Sheets.put_eq_self] at hshown
    exact hfilled'.ready.looksLike hfilled'.small hshown
  obtain ⟨look, changed, hloop, hchanged⟩ := hmirrors.insert_all h.coherent hm hfile hschema txn hgives
    hvalid (hfilled'.keepsOthers h.coherent hm) ⟨s, s, rfl, rfl, hstarted s opened hstart⟩ hfilled'
    (by rwa [Nat.zero_add]) hpages
  rw [Nat.zero_add] at hloop
  exact Plan.changes_of_respondAll (Source.open_change hopen)
    (fun demands => Source.respondAll_change hloop demands) hopened
    (hchanged.ready.looksLike hchanged.small hchanged.shown)

/-- An insert of a chain that does not read the table puts each tuple of the chain to the place that is
the first free one then, in the order of the chain, and it does so once, when a row is first asked for.
Nothing else changes, and the answer to all demands is the number of tuples. The pages can be written:
what the tables have and what the chain yields fits its columns. -/
theorem insert_detached {db : Database} (h : db.Regular) (hroom : 0 < db.pool.capacity) (hsmall : db.Small)
    (hfits : db.RowsFit) {file : TableFile} (hfile : db.catalog.file file.id = .ok file)
    {txn : TransactionId} {child plan : Plan}
    (haccepted : Plan.insertInto txn file.id child db = .ok plan db) (hchain : child.Chain db.catalog)
    (hdetached : child.Detached file.id) {ts : List Tuple} (hts : child.DrainsTo db ts)
    (hvalid : ∀ t ∈ ts, t.Valid) (hcount : ts.length ≤ 2147483647) :
    let after (i : Nat) := (db.sheets file.id).insertAll file.slotCount ((ts.take i).map Tuple.fields)
    (after ts.length).pages < UInt32.size →
      (∀ i t, ts[i]? = some t →
        ∃ place, (after i).InsertedAt (after (i + 1)) file.slotCount t.fields place) ∧
      plan.Changes db db.sheets (db.sheets.put file.id (after ts.length)) ts.length := by
  intro after hpages
  have hready := h.ready hroom hfits
  have hshown := h.coherent.shows_sheets
  have hslots : 0 < file.slotCount := file.slotCount_pos
  have hbounded : (db.sheets file.id).Bounded file.slotCount := (hshown file hfile).bounded h.coherent hfile
  obtain ⟨rfl, hschema⟩ := Plan.insertInto_eq_ok hfile haccepted
  constructor
  · exact fun i t ht => Sheet.insertedAt_take hslots hbounded ht
  · have hall : after ts.length = (db.sheets file.id).insertAll file.slotCount (ts.map Tuple.fields) := by
      change (db.sheets file.id).insertAll file.slotCount ((ts.take ts.length).map Tuple.fields) = _
      rw [List.take_length]
    rw [hall] at hpages ⊢
    exact hready.insert_chain hsmall hshown hfile hchain hdetached hschema txn hts hvalid hcount hpages

/-- With one frame and pages of two slots, the sums of the groups of a table are inserted into it: into
two free places and into a new page. -/
theorem insert_detached_sums :
    let schema : Schema :=
      ⟨[{ type := .integer, name := some "a" }, { type := .integer, name := some "b" }],
        List.cons_ne_nil _ _⟩
    let summed : Schema :=
      ⟨[{ type := .integer, name := some "x.a" }, { type := .integer, name := some "sum(x.b)" }],
        List.cons_ne_nil _ _⟩
    let file : TableFile := ⟨0, ⟨"t", 17⟩, schema, by decide, by decide⟩
    let start := withTable { pageSize := 17, poolPages := 1 } "t" schema
    let row (a b : Int32) : Tuple := ⟨schema, [.int a, .int b], none⟩
    let insert (a b : Int32) : Call := .insert ⟨1⟩ (.file "t") (row a b)
    let calls : List Call := [insert 1 10, insert 2 20, insert 1 5, insert 2 (-3), insert 3 7,
      .delete ⟨1⟩ { row 2 20 with record := some ⟨⟨.file "t", 0⟩, 1⟩ }]
    let child : Plan := .aggregate ⟨.sum, 1, some 0, summed⟩ (.scan file "x")
    let plan : Plan := .insert ⟨2⟩ file.id child
    let db := run calls start
    let ts : List Tuple := [⟨summed, [.int 1, .int 15], none⟩, ⟨summed, [.int 2, .int (-3)], none⟩,
      ⟨summed, [.int 3, .int 7], none⟩]
    let after (i : Nat) := (db.sheets file.id).insertAll file.slotCount ((ts.take i).map Tuple.fields)
    let count : Tuple := ⟨Source.countSchema, [.int 3], none⟩
    db.Regular ∧ 0 < db.pool.capacity ∧ db.Small ∧ db.RowsFit ∧ db.catalog.file file.id = .ok file ∧
      Plan.insertInto ⟨2⟩ file.id child db = .ok plan db ∧ child.Chain db.catalog ∧
      child.Detached file.id ∧ child.DrainsTo db ts ∧ (∀ t ∈ ts, t.Valid) ∧
      after 0 = ⟨3, ⟨[((0, 0), [.int 1, .int 10]), ((1, 0), [.int 1, .int 5]),
        ((1, 1), [.int 2, .int (-3)]), ((2, 0), [.int 3, .int 7])]⟩⟩ ∧
      after 3 = ⟨4, ⟨(after 0).cells.entries ++ [((0, 1), [.int 1, .int 15]),
        ((2, 1), [.int 2, .int (-3)]), ((3, 0), [.int 3, .int 7])]⟩⟩ ∧
      (∃ place, (after 2).InsertedAt (after 3) file.slotCount [.int 3, .int 7] place) ∧
      ∃ opened last, Operator.open (.ofPlan plan, db) = .ok () opened ∧ LooksLike opened.2 db.sheets ∧
        Operator.respondAll [.rewind, .hasNext, .next, .next, .rewind, .next] opened =
          .ok [.done, .more true, .row (some count), .row none, .done, .row (some count)] last ∧
        LooksLike last.2 (db.sheets.put file.id (after 3)) := by
  intro schema summed file start row insert calls child plan db ts after count
  have hcalls : ∀ call ∈ calls, call.Plain := by
    have hvalid (a b : Int32) : (row a b).Valid := by
      simp [row, schema, Tuple.Valid, Schema.types, Field.fits]
    simp [calls, insert, Call.Plain, hvalid]
  have hsmall : StaysSmall calls start := by decide +kernel
  have hdb : run calls start = db := rfl
  obtain ⟨hregular, hroom, hpages, hfits, -⟩ := regular_withTable (by decide) "t" schema hcalls hsmall hdb
  have hfile : db.catalog.file file.id = .ok file := by decide +kernel
  have hresult : child.result db.sheets = .ok ts := by decide +kernel
  have hcountable : child.Countable db.sheets := by
    have hscan : ((Plan.scan file "x").result db.sheets).toOption.map List.length = some 4 := by
      decide +kernel
    refine ⟨trivial, fun us hus => ?_⟩
    rw [hus] at hscan
    have hlength : us.length = 4 := Option.some.inj hscan
    omega
  have haccepted : Plan.insertInto ⟨2⟩ file.id child db = .ok plan db := by
    rw [Plan.insertInto_eq _ _ hfile, if_pos (by decide)]
  have hts : child.DrainsTo db ts := Plan.drainsTo_of_result (hregular.ready hroom hfits) hpages
    hregular.coherent.shows_sheets hfile hcountable hresult
  have hvalid : ∀ t ∈ ts, t.Valid := by
    have hrow (a b : Int32) : (⟨summed, [.int a, .int b], none⟩ : Tuple).Valid := by
      simp [summed, Tuple.Valid, Schema.types, Field.fits]
    simp only [ts, List.forall_mem_cons]
    exact ⟨hrow 1 15, hrow 2 (-3), hrow 3 7, List.forall_mem_nil _⟩
  obtain ⟨hplaces, hchanges⟩ := insert_detached hregular hroom hpages hfits hfile haccepted hfile
    trivial hts hvalid (by decide) (by decide +kernel)
  obtain ⟨opened, last, hopen, hopened, hrespond, hlast⟩ :=
    hchanges [.rewind, .hasNext, .next, .next, .rewind, .next]
  exact ⟨hregular, hroom, hpages, hfits, hfile, haccepted, hfile, trivial, hts, hvalid,
    by decide +kernel, by decide +kernel, hplaces 2 _ rfl, opened, last, hopen, hopened, hrespond, hlast⟩

/-- Two rows that were read from bytes that are no text are wider than their column. The chain yields both of
them, but for the page of the second one the page of the first cannot be written. -/
theorem insert_fails_of_wide_rows :
    let schema : Schema := ⟨[{ type := .char 1, name := some "a" }], List.cons_ne_nil _ _⟩
    let file : TableFile := ⟨0, ⟨"t.dat", 6⟩, schema, by decide, by decide⟩
    let db := withTable { pageSize := 6, poolPages := 1 } "t.dat" schema
    let t : Tuple := ⟨schema, [.str "\uFFFD"], none⟩
    let child : Plan := .rows schema [t, t]
    let plan : Plan := .insert ⟨2⟩ file.id child
    Tuple.decode schema [0, 0, 0, 1, 0xFF] = some t ∧ db.Fresh ∧ db.volume.bytes file.pages.name = [] ∧
      db.catalog.file file.id = .ok file ∧ Plan.ofRows schema [t, t] = .ok child ∧
      Plan.insertInto ⟨2⟩ file.id child db = .ok plan db ∧ child.DrainsTo db [t, t] ∧
      outcome (Operator.open (.ofPlan plan, db)) = .ok () ∧
      outcome ((Operator.open >>= fun _ => Operator.next) (.ofPlan plan, db)) =
        .error (.error (.typeMismatch 0 "CHAR(1)" "CHAR(3)")) := by
  intro schema file db t child plan
  have hfile : db.catalog.file file.id = .ok file := by decide +kernel
  have hrows : Plan.ofRows schema [t, t] = .ok child := by
    rw [Plan.ofRows]
    rfl
  have haccepted : Plan.insertInto ⟨2⟩ file.id child db = .ok plan db := by
    rw [Plan.insertInto_eq _ _ hfile, if_pos (by decide)]
  have hdrains : child.DrainsTo db [t, t] := ⟨_, _, _, rfl, rfl⟩
  exact ⟨by decide +kernel, fresh_withTable _ _ _, bytes_withTable _ _ _ _, hfile, hrows, haccepted, hdrains,
    by decide +kernel, by decide +kernel⟩

end Database
end RowStore
