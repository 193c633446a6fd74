import RowStore.Proofs.Demands
import RowStore.Proofs.GroupRows
import RowStore.Proofs.RegularStates
import RowStore.Proofs.TableScans

/-!
# What plans answer

The result of a plan is defined by recursion on the plan, over the sheets of the tables and without
operators: a leaf has its rows, a filter selects, an aggregate makes the rows of groups. The main
statement says that the operator of a chain answers any demands from this list, although the pool may
evict pages between any two of them, and that it leaves the tables as they were.
-/
namespace RowStore
open Relation Database

namespace Plan

/-- The rows of the plan over the sheets of the tables. -/
def result (sheets : Sheets) : Plan → Except StoreError (List Tuple)
  | .rows _ ts => .ok ts
  | .scan file qualifier => .ok ((sheets file.id).tuples file (file.schema.qualify qualifier))
  | .filter predicate child =>
    match child.result sheets with
    | .error e => .error e
    | .ok ts => predicate.select ts
  | .aggregate aggregation child =>
    match child.result sheets with
    | .error e => .error e
    | .ok ts => aggregation.groupRows ts
  | .insert _ _ child | .delete _ child =>
    (child.result sheets).map fun ts => [Source.countRow ts.length]

/-- The plan filters and aggregates given rows or the scan of a registered file. -/
def Chain (catalog : Catalog) : Plan → Prop
  | .rows _ _ => True
  | .scan file _ => catalog.file file.id = .ok file
  | .filter _ child | .aggregate _ child => child.Chain catalog
  | .insert _ _ _ | .delete _ _ => False

/-- Fewer than 2^32 tuples enter each aggregate of the plan. -/
def Countable (sheets : Sheets) : Plan → Prop
  | .aggregate _ child =>
    child.Countable sheets ∧ ∀ ts, child.result sheets = .ok ts → ts.length < 4294967296
  | .filter _ child | .insert _ _ child | .delete _ child => child.Countable sheets
  | .rows _ _ | .scan _ _ => True

theorem result_filter_eq_ok {sheets : Sheets} {predicate : Predicate} {child : Plan} {ts : List Tuple} :
    (Plan.filter predicate child).result sheets = .ok ts ↔
      ∃ us, child.result sheets = .ok us ∧ predicate.select us = .ok ts := by
  rw [result]
  cases child.result sheets <;> simp

theorem result_aggregate_eq_ok {sheets : Sheets} {aggregation : Aggregation} {child : Plan}
    {ts : List Tuple} : (Plan.aggregate aggregation child).result sheets = .ok ts ↔
      ∃ us, child.result sheets = .ok us ∧ aggregation.groupRows us = .ok ts := by
  rw [result]
  cases child.result sheets <;> simp

theorem enumerated {base : Database} (hready : base.Ready) (hsmall : base.Small) {sheets : Sheets}
    (hm : Matches base sheets) {plan : Plan} (hchain : plan.Chain base.catalog)
    (hcountable : plan.Countable sheets) {ts : List Tuple} (hresult : plan.result sheets = .ok ts) :
    Nonempty (Enumeration plan.source plan.initial base ts) := by
  induction plan generalizing ts with
  | rows schema rows =>
    cases hresult
    exact ⟨Source.enumerateRows base rows⟩
  | scan file qualifier =>
    cases hresult
    rw [← (hm file hchain).ahead hready.coherent hchain]
    exact ⟨Source.enumerateScan hchain (hsmall _ _ hchain) (Schema.agrees_qualify qualifier file.schema)⟩
  | filter predicate child ih =>
    obtain ⟨us, hchild, hselect⟩ := result_filter_eq_ok.mp hresult
    obtain ⟨e⟩ := ih hchain hcountable hchild
    exact ⟨e.filter hselect⟩
  | aggregate aggregation child ih =>
    obtain ⟨us, hchild, hrows⟩ := result_aggregate_eq_ok.mp hresult
    obtain ⟨e⟩ := ih hchain hcountable.1 hchild
    exact ⟨e.summary hrows (hcountable.2 us hchild)⟩
  | insert _ _ _ _ | delete _ _ _ => exact hchain.elim

end Plan

theorem Enumeration.yields {σ : Type} {source : Source σ} {init : σ} {base : Database}
    {ts : List Tuple} (e : Enumeration source init base ts) (hready : base.Ready) (hsmall : base.Small) :
    source.Yields ts fun s db rest => e.ahead s rest ∧ ReflTransGen Paging base db := by
  have hkeeps (reads : PageId → Prop) {db : Database} (hpages : ReflTransGen Paging base db) :
      base.Keeps reads db := (Keeps.refl hready hsmall reads).paging hpages
  constructor
  case pull =>
    rintro s db rest ⟨hs, hpages⟩
    obtain ⟨s', db', hpull, hmore, hs', -⟩ := e.pull hs (hkeeps _ hpages)
    exact ⟨s', db', hpull, hs', hpages.trans hmore⟩
  case restart =>
    rintro s db rest ⟨hs, hpages⟩
    obtain ⟨s', db', hrestart, hmore, hs'⟩ := e.restart hs (hkeeps _ hpages)
    exact ⟨s', db', hrestart, hs', hpages.trans hmore⟩

namespace Database

/-- The operator of a chain can be opened, and then it answers any demands from the chain's result. The
pages can be written, as all rows fit: `Fresh.regular_run` says so of tables that were filled from empty
files by valid tuples. -/
theorem respondAll_chain {db : Database} (h : db.Regular) (hroom : 0 < db.pool.capacity) (hsmall : db.Small)
    (hfits : db.RowsFit) {sheets : Sheets} (hm : Matches db sheets) {plan : Plan}
    (hchain : plan.Chain db.catalog) (hcountable : plan.Countable sheets) {ts : List Tuple}
    (hresult : plan.result sheets = .ok ts) (demands : List Demand) :
    ∃ opened last, Operator.open (.ofPlan plan, db) = .ok () opened ∧
      Operator.respondAll demands opened = .ok (Demand.expected ts 0 demands) last ∧
        LooksLike last.2 sheets := by
  have hready := h.ready hroom hfits
  obtain ⟨e⟩ := Plan.enumerated hready hsmall hm hchain hcountable hresult
  obtain ⟨s, middle, hopen, hpages, hs⟩ := e.open_ok (Keeps.refl hready hsmall _)
  obtain ⟨look, db', rest, hrespond, hlook⟩ :=
    (e.yields hready hsmall).respondAll demands 0 (.unseen ⟨hs, hpages⟩)
  have hpaging : ReflTransGen Paging db db' := by
    cases hlook with
    | unseen hs | peeked hs => exact hs.2
  obtain ⟨hlast, hsame⟩ := hready.pages hpaging
  exact ⟨(⟨plan, .opened s⟩, middle), (⟨plan, look⟩, db'), Operator.run_of_ok hopen,
    Operator.run_of_ok hrespond,
    hlast.looksLike (hsmall.of_sameRows h.coherent hsame) (hm.of_sameRows hsame)⟩

/-- With one frame and pages of two slots, sums of the positive values of five rows on three pages. -/
theorem respondAll_chain_sums :
    let schema : Schema :=
      ⟨[{ type := .integer, name := some "a" }, { type := .integer, name := some "b" }],
        List.cons_ne_nil _ _⟩
    let summed : Schema :=
      ⟨[{ type := .integer, name := some "x.a" }, { type := .integer, name := some "sum(x.b)" }],
        List.cons_ne_nil _ _⟩
    let file : TableFile := ⟨0, ⟨"t", 17⟩, schema, by decide, by decide⟩
    let start := withTable { pageSize := 17, poolPages := 1 } "t" schema
    let row (a b : Int32) : Tuple := ⟨schema, [.int a, .int b], none⟩
    let insert (a b : Int32) : Call := .insert ⟨1⟩ (.file "t") (row a b)
    let calls : List Call := [insert 1 10, insert 2 20, insert 1 5, insert 2 (-3), insert 1 7,
      .delete ⟨1⟩ { row 2 20 with record := some ⟨⟨.file "t", 0⟩, 1⟩ }, insert 2 4]
    let child : Plan := .filter ⟨1, .gt, .int 0⟩ (.scan file "x")
    let plan : Plan := .aggregate ⟨.sum, 1, some 0, summed⟩ child
    let db := run calls start
    let sheets := runSheets start.catalog calls fun _ => {}
    let ts : List Tuple := [⟨summed, [.int 1, .int 22], none⟩, ⟨summed, [.int 2, .int 4], none⟩]
    let demands : List Demand := [.hasNext, .hasNext, .next, .rewind, .next, .next, .hasNext, .next]
    db.Regular ∧ 0 < db.pool.capacity ∧ db.Small ∧ db.RowsFit ∧ Matches db sheets ∧
      plan.Chain db.catalog ∧ child.aggregated (some 0) 1 .sum = .ok plan ∧ plan.Countable sheets ∧
      plan.result sheets = .ok ts ∧
      ∃ opened last, Operator.open (.ofPlan plan, db) = .ok () opened ∧
        Operator.respondAll demands opened = .ok [.more true, .more true, .row ts[0]?, .done,
          .row ts[0]?, .row ts[1]?, .more false, .row none] last ∧ LooksLike last.2 sheets := by
  intro schema summed file start row insert calls child plan db sheets ts demands
  have hcalls : ∀ call ∈ calls, call.Plain := by
    have hvalid (a b : Int32) : (row a b).Valid := by
      simp [row, schema, Tuple.Valid, Schema.types, Field.fits]
    simp [calls, insert, Call.Plain, hvalid]
  have hsmall : StaysSmall calls start := by decide +kernel
  have hdb : run calls start = db := rfl
  obtain ⟨hregular, hroom, hpages, hfits, hmatches⟩ :=
    regular_withTable (by decide) "t" schema hcalls hsmall hdb
  have hchain : plan.Chain db.catalog := by
    change db.catalog.file file.id = .ok file
    decide +kernel
  have hresult : plan.result sheets = .ok ts := by decide +kernel
  have hchild : (child.result sheets).toOption.map List.length = some 4 := by decide +kernel
  have hcountable : plan.Countable sheets := by
    refine ⟨trivial, fun us hus => ?_⟩
    rw [hus] at hchild
    have hlength : us.length = 4 := Option.some.inj hchild
    omega
  exact ⟨hregular, hroom, hpages, hfits, hmatches, hchain, rfl, hcountable, hresult,
    respondAll_chain hregular hroom hpages hfits hmatches hchain hcountable hresult demands⟩

end Database
end RowStore
