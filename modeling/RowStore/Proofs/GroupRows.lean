import Mathlib.Algebra.Ring.Int.Defs
import Mathlib.Data.List.Forall2
import Mathlib.Data.List.Induction
import RowStore.Proofs.Enumeration
import RowStore.Query.Summary

/-!
# The rows of groups

The groups of a list of tuples are its keys in the order of their first tuples, each with the integers
of its tuples, and the row of a group has the value of the aggregate function over them. A summary,
which keeps running values of 64 bits, makes these rows of any fewer than 2^32 tuples.
-/
namespace RowStore
open Relation Database

/-- The value of the function over the integers of a group; an average is truncated toward zero. -/
def AggregateFunction.value : AggregateFunction → List Int → Int
  | .count, values => values.length
  | .sum, values => values.sum
  | .avg, values => values.sum.tdiv values.length
  | .min, values => values.min?.getD 0
  | .max, values => values.max?.getD 0

/-- The integers of one group. -/
def groupOf (key : Option Field) (items : List (Option Field × Int)) : List Int :=
  (items.filter fun item => decide (item.1 = key)).map Prod.snd

namespace Aggregation

/-- The group that the tuple belongs to and the integer that it has there. A text is counted only. -/
def item (aggregation : Aggregation) (t : Tuple) : Except StoreError (Option Field × Int) :=
  match aggregation.key t, t.field aggregation.field with
  | .error e, _ | .ok _, .error e => .error e
  | .ok key, .ok (.int value) => .ok (key, value.toInt)
  | .ok key, .ok (.str text) =>
    if aggregation.function = .count then .ok (key, 0)
    else .error (.unsupportedAggregate aggregation.function.text (Field.str text).type.text)

/-- The row of a group, whose value must have 32 bits. -/
def groupRow (aggregation : Aggregation) (key : Option Field) (values : List Int) :
    Except StoreError Tuple :=
  let value := aggregation.function.value values
  if -2147483648 ≤ value ∧ value ≤ 2147483647 then
    Tuple.ofFields aggregation.schema (key.toList ++ [.int (Int32.ofInt value)])
  else .error (.aggregateOverflow aggregation.function.text value)

/-- The rows of all groups of the items. -/
def itemRows (aggregation : Aggregation) (items : List (Option Field × Int)) :
    Except StoreError (List Tuple) :=
  (items.map Prod.fst).eraseDups.mapM fun key => aggregation.groupRow key (groupOf key items)

/-- The rows of all groups of the tuples. -/
def groupRows (aggregation : Aggregation) (ts : List Tuple) : Except StoreError (List Tuple) :=
  match ts.mapM aggregation.item with
  | .error e => .error e
  | .ok items => aggregation.itemRows items

end Aggregation

theorem forall₂_of_mapM {α β ε : Type} {f : α → Except ε β} {as : List α} {bs : List β}
    (h : as.mapM f = .ok bs) : List.Forall₂ (fun a b => f a = .ok b) as bs := by
  induction as generalizing bs with
  | nil =>
    cases h
    exact .nil
  | cons a as ih =>
    rw [List.mapM_cons] at h
    cases hfirst : f a with
    | error e => simp [hfirst, bind, Except.bind] at h
    | ok b =>
      cases hrest : as.mapM f with
      | error e => simp [hfirst, hrest, bind, Except.bind] at h
      | ok rest =>
        rw [hfirst, hrest] at h
        cases h
        exact .cons hfirst (ih hrest)

theorem exists_mapM_eq_ok {α β ε : Type} {f : α → Except ε β} {as : List α}
    (h : ∀ a ∈ as, ∃ b, f a = .ok b) : ∃ bs, as.mapM f = .ok bs := by
  induction as with
  | nil => exact ⟨[], rfl⟩
  | cons a as ih =>
    obtain ⟨b, hb⟩ := h a List.mem_cons_self
    obtain ⟨bs, hbs⟩ := ih fun other hmem => h other (List.mem_cons_of_mem _ hmem)
    exact ⟨b :: bs, by rw [List.mapM_cons, hb, hbs]; rfl⟩

theorem mapM_congr {α β ε : Type} {f g : α → Except ε β} {as : List α} (h : ∀ a ∈ as, f a = g a) :
    as.mapM f = as.mapM g := by
  induction as with
  | nil => rfl
  | cons a as ih =>
    rw [List.mapM_cons, List.mapM_cons, h a List.mem_cons_self,
      ih fun other hmem => h other (List.mem_cons_of_mem _ hmem)]

theorem eraseDups_concat_of_mem {α : Type} [BEq α] [LawfulBEq α] {as : List α} {a : α}
    (h : a ∈ as.eraseDups) : (as ++ [a]).eraseDups = as.eraseDups := by
  rw [List.mem_eraseDups] at h
  rw [List.eraseDups_append]
  simp [List.removeAll, h]

theorem eraseDups_concat_of_not_mem {α : Type} [BEq α] [LawfulBEq α] {as : List α} {a : α}
    (h : a ∉ as.eraseDups) : (as ++ [a]).eraseDups = as.eraseDups ++ [a] := by
  rw [List.mem_eraseDups] at h
  rw [List.eraseDups_append]
  simp [List.removeAll, List.eraseDups_cons, h]

theorem nodup_eraseDups {α : Type} [BEq α] [LawfulBEq α] (as : List α) : as.eraseDups.Nodup := by
  induction as using List.reverseRecOn with
  | nil => exact List.nodup_nil
  | append_singleton as a ih =>
    by_cases h : a ∈ as.eraseDups
    · rwa [eraseDups_concat_of_mem h]
    · rw [eraseDups_concat_of_not_mem h, List.nodup_append]
      refine ⟨ih, List.nodup_cons.mpr ⟨List.not_mem_nil, List.nodup_nil⟩, ?_⟩
      intro b hb c hc heq
      rw [List.mem_singleton] at hc
      exact h (hc ▸ heq ▸ hb)

theorem groupOf_concat (key : Option Field) (items : List (Option Field × Int))
    (item : Option Field × Int) :
    groupOf key (items ++ [item]) =
      if item.1 = key then groupOf key items ++ [item.2] else groupOf key items := by
  rw [groupOf, List.filter_append, List.map_append]
  by_cases h : item.1 = key <;> simp [groupOf, h]

/-- The integer has the range of an integer field. -/
def Bits32 (value : Int) : Prop := -2147483648 ≤ value ∧ value ≤ 2147483647

instance (value : Int) : Decidable (Bits32 value) := inferInstanceAs (Decidable (_ ∧ _))

theorem bits32_toInt (value : Int32) : Bits32 value.toInt :=
  ⟨value.le_toInt, Int.le_of_lt_add_one value.toInt_lt⟩

theorem sum_bounds {values : List Int} (h : ∀ value ∈ values, Bits32 value) :
    -2147483648 * values.length ≤ values.sum ∧ values.sum ≤ 2147483647 * values.length := by
  induction values with
  | nil => simp
  | cons value values ih =>
    have hfirst := h value List.mem_cons_self
    have hrest := ih fun other hmem => h other (List.mem_cons_of_mem _ hmem)
    rw [Bits32] at hfirst
    rw [List.sum_cons, List.length_cons]
    omega

namespace Accumulator

/-- The running value is that of the integers, and their number is counted. -/
structure Sums (function : AggregateFunction) (values : List Int) (acc : Accumulator) : Prop where
  count : acc.count = values.length
  value : match function with
    | .min => values.min? = some acc.value
    | .max => values.max? = some acc.value
    | .sum | .avg => values.sum = acc.value
    | .count => True

theorem sums_start (function : AggregateFunction) (value : Option Int) :
    (start value).Sums function [value.getD 0] := by
  constructor
  case count => rfl
  case value => cases function <;> simp [start]

theorem Sums.add {function : AggregateFunction} {values : List Int} {acc : Accumulator}
    (h : acc.Sums function values) (hbits : ∀ value ∈ values, Bits32 value)
    (hfew : values.length + 1 < 4294967296) {v : Int} (hv : Bits32 v) {value : Option Int}
    (hvalue : value = some v ∨ function = .count) :
    ∃ acc', Accumulator.add function value acc = .ok () acc' ∧ acc'.Sums function (values ++ [v]) := by
  have hcount := h.count
  have hrunning := h.value
  have hbounds := sum_bounds hbits
  rw [Bits32] at hv
  have hnext : acc.count + 1 = (values ++ [v]).length := by simp [hcount]
  rcases hvalue with rfl | rfl
  · cases function with
    | count => exact ⟨_, rfl, hnext, trivial⟩
    | min =>
      refine ⟨_, rfl, hnext, ?_⟩
      cases values with
      | nil => cases hrunning
      | cons first values =>
        rw [List.min?_cons', Option.some.injEq] at hrunning
        rw [List.cons_append, List.min?_cons', List.foldl_append, hrunning]
        rfl
    | max =>
      refine ⟨_, rfl, hnext, ?_⟩
      cases values with
      | nil => cases hrunning
      | cons first values =>
        rw [List.max?_cons', Option.some.injEq] at hrunning
        rw [List.cons_append, List.max?_cons', List.foldl_append, hrunning]
        rfl
    | sum | avg =>
      dsimp only at hrunning
      have hchecked : checkedAdd acc.value v = some (acc.value + v) := by
        rw [checkedAdd, if_pos (by omega)]
      refine ⟨⟨acc.value + v, acc.count + 1⟩, ?_, hnext, ?_⟩
      · simp [Accumulator.add, hchecked]
      · simp [hrunning]
  · refine ⟨{ acc with count := acc.count + 1 }, ?_, hnext, trivial⟩
    cases value <;> rfl

theorem Sums.exact_eq {function : AggregateFunction} {values : List Int} {acc : Accumulator}
    (h : acc.Sums function values) : acc.exact function = function.value values := by
  have hcount := h.count
  have hrunning := h.value
  cases function <;> simp_all [exact, AggregateFunction.value]

end Accumulator

/-- The groups are those of the items. -/
structure Groups.Sums (function : AggregateFunction) (items : List (Option Field × Int))
    (groups : Groups) : Prop where
  keys : groups.keys = (items.map Prod.fst).eraseDups
  values : ∀ key acc, groups.get? key = some acc → acc.Sums function (groupOf key items)
  bits : ∀ item ∈ items, Bits32 item.2

namespace Groups
variable {function : AggregateFunction} {items : List (Option Field × Int)} {groups : Groups}

theorem sums_empty (function : AggregateFunction) : Groups.Sums function [] ⟨[]⟩ := by
  refine ⟨rfl, ?_, ?_⟩
  · intro key acc hfound
    cases hfound
  · intro item hmem
    cases hmem

theorem Sums.groupOf_of_missing (h : groups.Sums function items) {key : Option Field}
    (hkey : groups.get? key = none) : groupOf key items = [] := by
  rw [Assoc.get?_eq_none_iff, h.keys, List.mem_eraseDups] at hkey
  rw [groupOf, List.map_eq_nil_iff, List.filter_eq_nil_iff]
  intro item hmem hsame
  exact hkey (List.mem_map.mpr ⟨item, hmem, of_decide_eq_true hsame⟩)

theorem Sums.insert (h : groups.Sums function items) {item : Option Field × Int} {acc : Accumulator}
    (hacc : acc.Sums function (groupOf item.1 items ++ [item.2])) (hbit : Bits32 item.2) :
    Groups.Sums function (items ++ [item]) (Assoc.insert groups item.1 acc) := by
  constructor
  case keys =>
    rw [Assoc.keys_insert, h.keys, List.map_append, List.map_singleton]
    by_cases hkey : item.1 ∈ (items.map Prod.fst).eraseDups
    · rw [if_pos hkey, eraseDups_concat_of_mem hkey]
    · rw [if_neg hkey, eraseDups_concat_of_not_mem hkey]
  case values =>
    intro key found hfound
    rw [Assoc.get?_insert] at hfound
    rw [groupOf_concat]
    by_cases hkey : key = item.1
    · rw [if_pos hkey] at hfound
      cases hfound
      rw [if_pos hkey.symm, hkey]
      exact hacc
    · rw [if_neg hkey] at hfound
      rw [if_neg (Ne.symm hkey)]
      exact h.values key found hfound
  case bits =>
    intro other hmem
    rcases List.mem_append.mp hmem with hmem | hmem
    · exact h.bits other hmem
    · rw [List.mem_singleton.mp hmem]
      exact hbit

end Groups

namespace Aggregation
variable {aggregation : Aggregation}

theorem item_eq_ok {t : Tuple} {item : Option Field × Int} (h : aggregation.item t = .ok item) :
    aggregation.key t = .ok item.1 ∧ Bits32 item.2 ∧ ∃ field, t.field aggregation.field = .ok field ∧
      (field.asInt.map Int32.toInt).getD 0 = item.2 ∧
        (field.asInt.map Int32.toInt = some item.2 ∨ aggregation.function = .count) := by
  unfold Aggregation.item at h
  cases hkey : aggregation.key t with
  | error e => simp [hkey] at h
  | ok key =>
    cases hfield : t.field aggregation.field with
    | error e => simp [hkey, hfield] at h
    | ok field =>
      cases field with
      | int value =>
        simp only [hkey, hfield] at h
        cases h
        exact ⟨rfl, bits32_toInt value, _, rfl, rfl, Or.inl rfl⟩
      | str text =>
        simp only [hkey, hfield] at h
        split at h
        · next hcount =>
          cases h
          exact ⟨rfl, bits32_toInt 0, _, rfl, rfl, Or.inr hcount⟩
        · cases h

theorem merge_ok {groups : Groups} {items : List (Option Field × Int)}
    (h : groups.Sums aggregation.function items)
    (hfew : items.length + 1 < 4294967296) {t : Tuple} {item : Option Field × Int}
    (hitem : aggregation.item t = .ok item) :
    ∃ groups', aggregation.merge t groups = .ok () groups' ∧
      groups'.Sums aggregation.function (items ++ [item]) := by
  obtain ⟨hkey, hbit, field, hfield, hdefault, hvalue⟩ := item_eq_ok hitem
  cases hgroup : groups.get? item.1 with
  | none =>
    have hsums := Accumulator.sums_start aggregation.function (field.asInt.map Int32.toInt)
    have hgrown : groupOf item.1 items ++ [item.2] = [item.2] := by
      rw [h.groupOf_of_missing hgroup, List.nil_append]
    rw [hdefault, ← hgrown] at hsums
    refine ⟨_, ?_, h.insert hsums hbit⟩
    simp only [merge, hkey, hfield, hgroup]
  | some acc =>
    have hgroupBits : ∀ value ∈ groupOf item.1 items, Bits32 value := by
      intro value hmem
      obtain ⟨other, hother, rfl⟩ := List.mem_map.mp hmem
      exact h.bits other (List.mem_filter.mp hother).1
    have hlength : (groupOf item.1 items).length ≤ items.length := by
      rw [groupOf, List.length_map]
      exact List.length_filter_le _ _
    obtain ⟨acc', hadd, hsums⟩ :=
      (h.values item.1 acc hgroup).add hgroupBits (by omega) hbit hvalue
    refine ⟨_, ?_, h.insert hsums hbit⟩
    simp only [merge, hkey, hfield, hgroup, hadd]

theorem rows_eq {groups : Groups} {items : List (Option Field × Int)}
    (h : groups.Sums aggregation.function items) :
    aggregation.rows groups = aggregation.itemRows items := by
  have hnodup : groups.keys.Nodup := by
    rw [h.keys]
    exact nodup_eraseDups _
  have hrow (entry : Option Field × Accumulator) (hmem : entry ∈ groups.entries) :
      aggregation.row entry.1 entry.2 = aggregation.groupRow entry.1 (groupOf entry.1 items) := by
    have hsums := h.values entry.1 entry.2 (Assoc.get?_of_mem_entries hnodup hmem)
    simp only [row, groupRow, Accumulator.result, hsums.exact_eq]
    split <;> rfl
  rw [rows, mapM_congr hrow, itemRows, ← h.keys, Assoc.keys, List.mapM_map]
  rfl

end Aggregation
/-- The items belong to the tuples, in order. -/
abbrev Aggregation.Items (aggregation : Aggregation) : List Tuple → List (Option Field × Int) → Prop :=
  List.Forall₂ fun t item => aggregation.item t = .ok item

/-- All but the rest of the tuples are in the groups, and the database was used for paging only. -/
def MergedUpTo (aggregation : Aggregation) (items : List (Option Field × Int)) (start : Database)
    (rest : List Tuple) (groups : Groups) (db : Database) : Prop :=
  ReflTransGen Paging start db ∧ ∃ merged left, items = merged ++ left ∧ aggregation.Items rest left ∧
    groups.Sums aggregation.function merged

section
variable {aggregation : Aggregation} {items : List (Option Field × Int)} {db : Database}

theorem mergedUpTo_zero {ts : List Tuple} (hitems : aggregation.Items ts items) (db : Database) :
    MergedUpTo aggregation items db ts ⟨[]⟩ db := by
  exact ⟨.refl, [], items, rfl, hitems, Groups.sums_empty aggregation.function⟩

theorem MergedUpTo.step {start : Database} {t : Tuple} {rest : List Tuple} {groups : Groups}
    (h : MergedUpTo aggregation items start (t :: rest) groups db) (hfew : items.length < 4294967296) :
    ∃ groups', Source.mergeStep aggregation t (groups, db) = .ok () (groups', db) ∧
      MergedUpTo aggregation items start rest groups' db := by
  obtain ⟨hpages, merged, left, hall, hleft, hsums⟩ := h
  cases hleft with
  | @cons _ item _ left hitem hleft =>
    rw [hall, List.length_append, List.length_cons] at hfew
    obtain ⟨groups', hmerge, hsums'⟩ := Aggregation.merge_ok hsums (by omega) hitem
    refine ⟨groups', ?_, hpages, merged ++ [item], left, ?_, hleft, hsums'⟩
    · simp only [Source.mergeStep, hmerge]
    · rw [hall, List.append_assoc, List.singleton_append]

end

namespace Enumeration
variable {σ : Type} {source : Source σ} {init : σ} {base : Database} {ts rows : List Tuple}

theorem merge_all (e : Enumeration source init base ts) {aggregation : Aggregation}
    {items : List (Option Field × Int)} (hitems : aggregation.Items ts items)
    (hfew : ts.length < 4294967296) {s : σ} {db : Database} (hs : e.ahead s ts)
    (hkeeps : base.Keeps (e.reads s) db) :
    ∃ look groups db', source.forEach (Source.mergeStep aggregation) ((.opened s, ⟨[]⟩), db) =
        .ok () ((look, groups), db') ∧ ReflTransGen Paging db db' ∧
      groups.Sums aggregation.function items := by
  rw [hitems.length_eq] at hfew
  obtain ⟨s', groups, db', hloop, -, hpages, merged, left, hall, hleft, hsums⟩ :=
    e.forEach_ok (Source.mergeStep aggregation) (MergedUpTo aggregation items db)
      (fun _ hup hpages => ⟨hup.1.trans hpages, hup.2⟩)
      (fun {_ _ groups _ db} hkept _ hup => by
        obtain ⟨groups', hmerge, hup'⟩ := hup.step hfew
        exact ⟨groups', db, hmerge, hkept, hup'⟩)
      hs hkeeps (mergedUpTo_zero hitems db)
  cases hleft
  rw [List.append_nil] at hall
  exact ⟨.opened s', groups, db', hloop, hpages, hall ▸ hsums⟩

/-- A summary enumerates the rows of the groups. -/
def summary (e : Enumeration source init base ts) {aggregation : Aggregation}
    (hrows : aggregation.groupRows ts = .ok rows) (hfew : ts.length < 4294967296) :
    Enumeration (source.summary aggregation) { child := { inner := init } } base rows where
  ahead state rest := state.results = some ⟨rows, rest⟩
  reads _ _ := False
  start := by
    intro db hkeeps
    rw [Aggregation.groupRows] at hrows
    cases hitems : ts.mapM aggregation.item with
    | error e => simp [hitems] at hrows
    | ok items =>
      simp only [hitems] at hrows
      obtain ⟨s, middle, hopen, hpages, hs⟩ := e.open_ok hkeeps
      obtain ⟨look, groups, db', hloop, hpages', hsums⟩ := e.merge_all (forall₂_of_mapM hitems) hfew hs
        ((hkeeps.paging hpages).mono fun _ _ => trivial)
      refine ⟨⟨look, groups, some (.ofRows rows)⟩, db', ?_, hpages.trans hpages', rfl⟩
      simp only [Source.summary, Source.startSummary, hopen, hloop, Aggregation.rows_eq hsums, hrows]
  pull := by
    rintro ⟨child, groups, results⟩ rest db hahead _
    cases hahead
    exact ⟨⟨child, groups, some ⟨rows, rest.tail⟩⟩, db, rfl, .refl, rfl, fun _ => id, fun _ _ _ _ => id⟩
  restart := by
    rintro ⟨child, groups, results⟩ rest db hahead _
    cases hahead
    exact ⟨⟨child, groups, some (.ofRows rows)⟩, db, rfl, .refl, rfl⟩

end Enumeration
end RowStore
