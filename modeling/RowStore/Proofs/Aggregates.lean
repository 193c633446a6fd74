import RowStore.Proofs.GroupRows

/-!
# What an aggregation computes

Any fewer than 2^32 tuples of the input schema can be merged, and they come to one row for each group,
in the order of the groups' first tuples, with the exact value of the function over the tuples of the
group. What a group can be refused a row for is a value of more than 32 bits, which no minimum, maximum
or average has, or a key whose text is wider than its column, which no valid tuple has.
-/
namespace RowStore

namespace Tuple

/-- The value of the tuple in the group column, if there is one. -/
def groupKey (group : Option Nat) (t : Tuple) : Option Field := group.bind fun index => t.fields[index]?

/-- The integer of the tuple in the column. A text, which is counted only, stands for zero. -/
def integerAt (field : Nat) (t : Tuple) : Int :=
  ((t.fields[field]?.bind Field.asInt).map Int32.toInt).getD 0

theorem bits32_integerAt (t : Tuple) (field : Nat) : Bits32 (t.integerAt field) := by
  rw [integerAt]
  cases t.fields[field]?.bind Field.asInt with
  | none => exact bits32_toInt 0
  | some value => exact bits32_toInt value

/-- There is an integer or a text for each column, as the column says. A text may be too long. -/
def Typed (t : Tuple) : Prop :=
  List.Forall₂ (fun field type => field.type.isString = type.isString) t.fields t.schema.types

theorem isString_of_fits {field : Field} {type : ColumnType} (h : field.fits type = true) :
    field.type.isString = type.isString := by
  cases field <;> cases type <;> first | rfl | cases h

theorem Valid.fits_columns {t : Tuple} (h : t.Valid) :
    List.Forall₂ (fun field type => field.fits type = true) t.fields t.schema.types :=
  List.forall₂_iff_zip.mpr ⟨h.1, fun hmem => h.2 _ hmem⟩

theorem Valid.typed {t : Tuple} (h : t.Valid) : t.Typed := h.fits_columns.imp fun _ _ => isString_of_fits

theorem isString_of_decode {field : Field} {type : ColumnType} {data : Bytes}
    (h : Field.decode type data = some field) : field.type.isString = type.isString := by
  unfold Field.decode at h
  split at h
  · cases h
  · cases type <;> cases h <;> rfl

theorem typed_of_decodeFields {types : List ColumnType} {data : Bytes} {fields : List Field}
    (h : decodeFields types data = some fields) :
    List.Forall₂ (fun field type => field.type.isString = type.isString) fields types := by
  induction types generalizing data fields with
  | nil =>
    cases h
    exact .nil
  | cons type types ih =>
    rw [decodeFields] at h
    cases hfield : Field.decode type data with
    | none => simp [hfield] at h
    | some field =>
      simp only [hfield, Option.map_eq_some_iff] at h
      obtain ⟨tail, htail, rfl⟩ := h
      exact .cons (isString_of_decode hfield) (ih htail)

theorem Typed.set {t : Tuple} (h : t.Typed) {index : Nat} {field : Field} {type : ColumnType}
    (htype : t.schema.fieldType index = .ok type) (hfits : field.fits type = true) :
    Typed { t with fields := t.fields.set index field } := by
  obtain ⟨hlength, hfields⟩ := List.forall₂_iff_get.mp h
  refine List.forall₂_iff_get.mpr ⟨(List.length_set ..).trans hlength, fun i hi hi' => ?_⟩
  rw [List.get_eq_getElem, List.getElem_set]
  split
  · next hindex =>
    subst hindex
    obtain ⟨column, hcolumn, rfl⟩ := map_eq_ok.mp htype
    rw [isString_of_fits hfits, List.get_eq_getElem]
    simp only [Schema.types, List.getElem_map]
    rw [Schema.column] at hcolumn
    split at hcolumn
    · next found hfound =>
      cases hcolumn
      rw [(List.getElem?_eq_some_iff.mp hfound).2]
    · cases hcolumn
  · exact hfields i ((List.length_set ..) ▸ hi) hi'

theorem Built.typed {t : Tuple} (h : t.Built) : t.Typed := by
  induction h with
  | ofFields h => exact (valid_of_ofFields h).1.typed
  | decode h =>
    obtain ⟨fields, hfields, rfl⟩ := Option.map_eq_some_iff.mp h
    exact typed_of_decodeFields hfields
  | setField _ h ih =>
    unfold Tuple.setField at h
    split at h
    · cases h
    · next htype =>
      split at h <;> cases h
      next hcheck => exact ih.set htype (fits_of_checkField hcheck)
  | resetSchema _ h ih =>
    unfold Tuple.resetSchema at h
    split at h
    · next hagrees =>
      cases h
      rw [Typed, hagrees]
      exact ih
    · cases h
  | moved _ _ ih => exact ih

theorem field_of_column {R : Field → ColumnType → Prop} {t : Tuple}
    (h : List.Forall₂ R t.fields t.schema.types) {input : Schema} (hagrees : t.schema.Agrees input)
    {index : Nat} {column : Column} (hcolumn : input.columns[index]? = some column) :
    ∃ field, t.fields[index]? = some field ∧ R field column.type := by
  obtain ⟨hlength, hfields⟩ := List.forall₂_iff_get.mp h
  have htype : t.schema.types[index]? = some column.type := by
    rw [hagrees, Schema.types, List.getElem?_map, hcolumn]
    rfl
  obtain ⟨hlt, heq⟩ := List.getElem?_eq_some_iff.mp htype
  have hfield : index < t.fields.length := hlength ▸ hlt
  refine ⟨t.fields[index], List.getElem?_eq_getElem hfield, ?_⟩
  have hrelated := hfields index hfield hlt
  rwa [List.get_eq_getElem, List.get_eq_getElem, heq] at hrelated

end Tuple

/-- The keys of the groups, in the order of their first tuples. -/
def groupKeys (group : Option Nat) (ts : List Tuple) : List (Option Field) :=
  (ts.map (Tuple.groupKey group)).eraseDups

/-- The tuples of one group. -/
def groupMembers (group : Option Nat) (ts : List Tuple) (key : Option Field) : List Tuple :=
  ts.filter fun t => decide (t.groupKey group = key)

theorem groupKeys_none (ts : List Tuple) : groupKeys none ts = if ts = [] then [] else [none] := by
  induction ts using List.reverseRecOn with
  | nil => rfl
  | append_singleton ts t ih =>
    rw [groupKeys, List.map_append, List.map_singleton]
    rw [groupKeys] at ih
    by_cases hempty : ts = []
    · rw [hempty]
      rfl
    · rw [if_neg hempty] at ih
      have hseen : t.groupKey none ∈ (ts.map (Tuple.groupKey none)).eraseDups := by
        rw [ih]
        exact List.mem_singleton_self none
      rw [eraseDups_concat_of_mem hseen, ih, if_neg (List.append_ne_nil_of_right_ne_nil _ (by simp))]

theorem bits32_tdiv {sum : Int} {count : Nat} (hlow : -2147483648 * count ≤ sum)
    (hhigh : sum ≤ 2147483647 * count) : Bits32 (sum.tdiv count) := by
  rcases Nat.eq_zero_or_pos count with hzero | hpos
  · rw [hzero, Int.natCast_zero, Int.tdiv_zero]
    exact ⟨by decide, by decide⟩
  · have hpos' : (0 : Int) < count := Int.natCast_pos.mpr hpos
    rw [Bits32]
    rcases Int.le_total 0 sum with hsum | hsum
    · rw [Int.tdiv_eq_ediv_of_nonneg hsum]
      have hquotient := Int.ediv_nonneg hsum (Int.le_of_lt hpos')
      have hbound := Int.ediv_le_of_le_mul hpos' hhigh
      omega
    · have hsum' := Int.neg_nonneg_of_nonpos hsum
      have hneg : sum.tdiv count = -(-sum / count) := by
        rw [← Int.tdiv_eq_ediv_of_nonneg hsum', Int.neg_tdiv, Int.neg_neg]
      have hquotient := Int.ediv_nonneg hsum' (Int.le_of_lt hpos')
      have hbound : -sum / count ≤ 2147483648 := Int.ediv_le_of_le_mul hpos' (by omega)
      omega

theorem bits32_average {values : List Int} (h : ∀ value ∈ values, Bits32 value) :
    Bits32 (values.sum.tdiv values.length) :=
  bits32_tdiv (sum_bounds h).1 (sum_bounds h).2

theorem AggregateFunction.bits32_value {function : AggregateFunction}
    (hfunction : function ≠ .sum ∧ function ≠ .count) {values : List Int}
    (h : ∀ value ∈ values, Bits32 value) : Bits32 (function.value values) := by
  have hmember (found : Option Int) (hfound : ∀ value, found = some value → value ∈ values) :
      Bits32 (found.getD 0) := by
    cases found with
    | none => exact bits32_toInt 0
    | some value => exact h value (hfound value rfl)
  cases function with
  | min => exact hmember values.min? fun _ => List.min?_mem
  | max => exact hmember values.max? fun _ => List.max?_mem
  | avg => exact bits32_average h
  | sum => exact absurd rfl hfunction.1
  | count => exact absurd rfl hfunction.2

theorem mapM_refusal {α β ε : Type} {f : α → Except ε β} {refusal : α → Option ε} {result : α → β}
    {as : List α} (hok : ∀ a ∈ as, refusal a = none → f a = .ok (result a))
    (herror : ∀ a ∈ as, ∀ e, refusal a = some e → f a = .error e) :
    as.mapM f = match as.findSome? refusal with
      | none => .ok (as.map result)
      | some e => .error e := by
  induction as with
  | nil => rfl
  | cons a as ih =>
    have hrest := ih (fun b hb => hok b (List.mem_cons_of_mem _ hb))
      fun b hb => herror b (List.mem_cons_of_mem _ hb)
    rw [List.mapM_cons, hrest, List.findSome?_cons]
    cases hrefusal : refusal a with
    | none =>
      rw [hok a List.mem_cons_self hrefusal]
      cases as.findSome? refusal <;> rfl
    | some e =>
      rw [herror a List.mem_cons_self e hrefusal]
      rfl

namespace Aggregation

/-- The aggregation sums up a column of the schema, and its rows have the group column and an integer. -/
structure Accepts (aggregation : Aggregation) (input : Schema) : Prop where
  summed : ∃ column, input.columns[aggregation.field]? = some column ∧
    (column.type.isString = true → aggregation.function = .count)
  grouped : ∀ index, aggregation.group = some index → ∃ column, input.columns[index]? = some column ∧
    aggregation.schema.types = [column.type, .integer]
  ungrouped : aggregation.group = none → aggregation.schema.types = [.integer]

theorem accepts_of_ofSchema {input : Schema} {group : Option Nat} {field : Nat}
    {function : AggregateFunction} {aggregation : Aggregation}
    (h : ofSchema input group field function = .ok aggregation) :
    aggregation.function = function ∧ aggregation.field = field ∧ aggregation.group = group ∧
      aggregation.Accepts input := by
  unfold ofSchema Schema.column at h
  cases hcolumn : input.columns[field]? with
  | none => simp [hcolumn, bind, Except.bind] at h
  | some column =>
    cases hguard : (column.type.isString && function != .count) with
    | true => simp [hcolumn, hguard, bind, Except.bind] at h
    | false =>
      have hsummed : column.type.isString = true → function = .count := by
        intro htext
        rwa [htext, Bool.true_and, bne_eq_false_iff_eq] at hguard
      cases group with
      | none =>
        simp only [hcolumn, hguard, bind, Except.bind, pure, Except.pure, Bool.false_eq_true, if_false] at h
        cases h
        exact ⟨rfl, rfl, rfl, ⟨column, hcolumn, hsummed⟩, fun _ hgroup => (by cases hgroup), fun _ => rfl⟩
      | some index =>
        cases hkey : input.columns[index]? with
        | none => simp [hcolumn, hguard, hkey, bind, Except.bind] at h
        | some key =>
          simp only [hcolumn, hguard, hkey, bind, Except.bind, pure, Except.pure, Bool.false_eq_true,
            if_false] at h
          cases h
          refine ⟨rfl, rfl, rfl, ⟨column, hcolumn, hsummed⟩, ?_, fun hgroup => by cases hgroup⟩
          rintro _ ⟨⟩
          exact ⟨key, hkey, rfl⟩

variable {aggregation : Aggregation} {input : Schema}

theorem Accepts.key_eq (h : aggregation.Accepts input) {t : Tuple} (hagrees : t.schema.Agrees input)
    (htyped : t.Typed) : aggregation.key t = .ok (t.groupKey aggregation.group) := by
  rw [key, Tuple.groupKey]
  cases hgroup : aggregation.group with
  | none => rfl
  | some index =>
    obtain ⟨column, hcolumn, _⟩ := h.grouped index hgroup
    obtain ⟨field, hfield, _⟩ := Tuple.field_of_column htyped hagrees hcolumn
    simp only [Tuple.field, hfield, Option.bind_some]
    rfl

theorem Accepts.item_eq (h : aggregation.Accepts input) {t : Tuple} (hagrees : t.schema.Agrees input)
    (htyped : t.Typed) :
    aggregation.item t = .ok (t.groupKey aggregation.group, t.integerAt aggregation.field) := by
  obtain ⟨column, hcolumn, hcounted⟩ := h.summed
  obtain ⟨field, hfield, hkind⟩ := Tuple.field_of_column htyped hagrees hcolumn
  have hvalue : t.field aggregation.field = .ok field := by rw [Tuple.field, hfield]
  have hinteger : t.integerAt aggregation.field = (field.asInt.map Int32.toInt).getD 0 := by
    rw [Tuple.integerAt, hfield, Option.bind_some]
  rw [item, h.key_eq hagrees htyped, hvalue, hinteger]
  cases field with
  | int value => rfl
  | str text =>
    simp only [hcounted hkind.symm, if_true]
    rfl

/-- The refusal of a text that is wider than the group column. -/
def wideKey? (aggregation : Aggregation) (key : Option Field) : Option StoreError :=
  match key, aggregation.schema.types with
  | some (.str text), .char width :: _ =>
    if text.utf8ByteSize ≤ width.toNat then none
    else some (.fieldTooLong text.utf8ByteSize width.toNat)
  | _, _ => none

/-- The refusal of a group with that value: the value has more than 32 bits, or else the key is wide. -/
def refusal? (aggregation : Aggregation) (key : Option Field) (value : Int) : Option StoreError :=
  if Bits32 value then aggregation.wideKey? key
  else some (.aggregateOverflow aggregation.function.text value)

/-- The row of a group: its key, if there is a group column, and a value. -/
def resultRow (aggregation : Aggregation) (key : Option Field) (value : Int) : Tuple :=
  { schema := aggregation.schema, fields := key.toList ++ [.int (Int32.ofInt value)] }

theorem refusal?_eq_none {key : Option Field} {value : Int} :
    aggregation.refusal? key value = none ↔ Bits32 value ∧ aggregation.wideKey? key = none := by
  unfold refusal?
  split <;> simp [*]

theorem Accepts.ofFields_ungrouped (h : aggregation.Accepts input) (hgroup : aggregation.group = none)
    (value : Int32) :
    Tuple.ofFields aggregation.schema [.int value] = .ok ⟨aggregation.schema, [.int value], none⟩ := by
  apply Tuple.ofFields_of_valid
  rw [Tuple.Valid, h.ungrouped hgroup]
  exact ⟨rfl, fun pair hmem => by rw [List.mem_singleton.mp hmem]; rfl⟩

theorem Accepts.ofFields_eq (h : aggregation.Accepts input) {t : Tuple}
    (hagrees : t.schema.Agrees input) (htyped : t.Typed) (value : Int32) :
    Tuple.ofFields aggregation.schema ((t.groupKey aggregation.group).toList ++ [.int value]) =
      match aggregation.wideKey? (t.groupKey aggregation.group) with
      | none => .ok ⟨aggregation.schema, (t.groupKey aggregation.group).toList ++ [.int value], none⟩
      | some e => .error e := by
  cases hgroup : aggregation.group with
  | none => exact h.ofFields_ungrouped hgroup value
  | some index =>
    obtain ⟨column, hcolumn, htypes⟩ := h.grouped index hgroup
    obtain ⟨field, hfield, hkind⟩ := Tuple.field_of_column htyped hagrees hcolumn
    have hkey : t.groupKey (some index) = some field := by
      rw [Tuple.groupKey, Option.bind_some, hfield]
    have hcount : aggregation.schema.fieldCount = 2 := by
      rw [← Schema.length_types, htypes]
      rfl
    unfold wideKey? Tuple.ofFields
    rw [hkey, htypes, hcount]
    cases field with
    | int key =>
      cases htype : column.type with
      | integer => rfl
      | char width =>
        rw [htype] at hkind
        cases hkind
    | str text =>
      cases htype : column.type with
      | integer =>
        rw [htype] at hkind
        cases hkind
      | char width =>
        by_cases hfits : text.utf8ByteSize ≤ width.toNat <;>
          simp [Tuple.checkFields, Tuple.checkField, Field.fits, hfits]

theorem Accepts.wideKey?_of_valid (h : aggregation.Accepts input) {t : Tuple}
    (hagrees : t.schema.Agrees input) (hvalid : t.Valid) :
    aggregation.wideKey? (t.groupKey aggregation.group) = none := by
  cases hgroup : aggregation.group with
  | none => rfl
  | some index =>
    obtain ⟨column, hcolumn, htypes⟩ := h.grouped index hgroup
    obtain ⟨field, hfield, hfits⟩ := Tuple.field_of_column hvalid.fits_columns hagrees hcolumn
    rw [Tuple.groupKey, Option.bind_some, hfield]
    unfold wideKey?
    rw [htypes]
    cases field with
    | int key => rfl
    | str text =>
      cases htype : column.type with
      | integer => rfl
      | char width =>
        rw [htype, Field.fits, decide_eq_true_eq] at hfits
        simp only [hfits, if_true]

end Aggregation

/-- The value of the function over the tuples of one group. -/
def exactValue (function : AggregateFunction) (group : Option Nat) (field : Nat) (ts : List Tuple)
    (key : Option Field) : Int :=
  function.value ((groupMembers group ts key).map (Tuple.integerAt field))

theorem groupOf_map (group : Option Nat) (field : Nat) (ts : List Tuple) (key : Option Field) :
    groupOf key (ts.map fun t => (t.groupKey group, t.integerAt field)) =
      (groupMembers group ts key).map (Tuple.integerAt field) := by
  rw [groupOf, List.filter_map, List.map_map]
  rfl

namespace Aggregation
variable {aggregation : Aggregation} {input : Schema}

theorem Accepts.itemRows_eq (h : aggregation.Accepts input) {ts : List Tuple}
    (hts : ∀ t ∈ ts, t.schema.Agrees input ∧ t.Typed) {exact : Option Field → Int}
    (hexact : exact = exactValue aggregation.function aggregation.group aggregation.field ts) :
    aggregation.itemRows (ts.map fun t => (t.groupKey aggregation.group, t.integerAt aggregation.field)) =
      match (groupKeys aggregation.group ts).findSome? fun key => aggregation.refusal? key (exact key) with
      | none => .ok ((groupKeys aggregation.group ts).map fun key => aggregation.resultRow key (exact key))
      | some e => .error e := by
  have hrow (key : Option Field) (hkey : key ∈ groupKeys aggregation.group ts) :
      aggregation.groupRow key ((groupMembers aggregation.group ts key).map
        (Tuple.integerAt aggregation.field)) =
      match aggregation.refusal? key (exact key) with
      | none => .ok (aggregation.resultRow key (exact key))
      | some e => .error e := by
    obtain ⟨t, ht, rfl⟩ := List.mem_map.mp (List.mem_eraseDups.mp hkey)
    obtain ⟨hagrees, htyped⟩ := hts t ht
    rw [groupRow, refusal?, hexact]
    simp only [h.ofFields_eq hagrees htyped]
    by_cases hbits : Bits32 (exactValue aggregation.function aggregation.group aggregation.field ts
      (t.groupKey aggregation.group))
    · rw [if_pos hbits]
      exact if_pos hbits
    · rw [if_neg hbits]
      exact if_neg hbits
  have hok (key : Option Field) (hkey : key ∈ groupKeys aggregation.group ts)
      (hnone : aggregation.refusal? key (exact key) = none) :
      aggregation.groupRow key ((groupMembers aggregation.group ts key).map
        (Tuple.integerAt aggregation.field)) = .ok (aggregation.resultRow key (exact key)) := by
    rw [hrow key hkey, hnone]
  have herror (key : Option Field) (hkey : key ∈ groupKeys aggregation.group ts) (e : StoreError)
      (hsome : aggregation.refusal? key (exact key) = some e) :
      aggregation.groupRow key ((groupMembers aggregation.group ts key).map
        (Tuple.integerAt aggregation.field)) = .error e := by
    rw [hrow key hkey, hsome]
  simp only [itemRows, List.map_map, groupOf_map]
  refine (mapM_refusal hok herror).trans ?_
  cases (groupKeys aggregation.group ts).findSome? fun key => aggregation.refusal? key (exact key) <;> rfl

theorem forM_merge {ts : List Tuple} {items : List (Option Field × Int)}
    (hitems : aggregation.Items ts items) {groups : Groups} {merged : List (Option Field × Int)}
    (h : groups.Sums aggregation.function merged) (hfew : merged.length + items.length < 4294967296) :
    ∃ groups', ts.forM aggregation.merge groups = .ok () groups' ∧
      groups'.Sums aggregation.function (merged ++ items) := by
  induction hitems generalizing groups merged with
  | nil => exact ⟨groups, rfl, by rwa [List.append_nil]⟩
  | @cons t item ts items hitem _ ih =>
    rw [List.length_cons] at hfew
    obtain ⟨middle, hmerge, hsums⟩ := merge_ok h (by omega) hitem
    obtain ⟨groups', hrest, hall⟩ := ih hsums (by rw [List.length_append, List.length_singleton]; omega)
    refine ⟨groups', ?_, ?_⟩
    · change EStateM.bind (aggregation.merge t) (fun _ => ts.forM aggregation.merge) groups = _
      simp only [EStateM.bind, hmerge, hrest]
    · rwa [List.append_assoc, List.singleton_append] at hall

/-- The tuples can all be merged, whether or not their texts fit. The rows are those of the groups, with
the exact values of the function, or the first group that is refused its row is reported. -/
theorem rows_of_merged {group : Option Nat} {field : Nat} {function : AggregateFunction}
    (h : ofSchema input group field function = .ok aggregation) {ts : List Tuple}
    (hts : ∀ t ∈ ts, t.schema.Agrees input ∧ t.Built) (hfew : ts.length < 4294967296) :
    let exact := exactValue function group field ts
    ∃ groups, ts.forM aggregation.merge ⟨[]⟩ = .ok () groups ∧
      (aggregation.rows groups =
        match (groupKeys group ts).findSome? fun key => aggregation.refusal? key (exact key) with
        | none => .ok ((groupKeys group ts).map fun key => aggregation.resultRow key (exact key))
        | some e => .error e) ∧
      ((∃ rows, aggregation.rows groups = .ok rows) ↔ ∀ key ∈ groupKeys group ts,
        Bits32 (exact key) ∧ aggregation.wideKey? key = none) ∧
      (group = none → groupKeys group ts = if ts = [] then [] else [none]) ∧
      (function ≠ .sum ∧ function ≠ .count → ∀ key, Bits32 (exact key)) ∧
      ((∀ t ∈ ts, t.Valid) → ∀ key ∈ groupKeys group ts, aggregation.wideKey? key = none) := by
  intro exact
  obtain ⟨rfl, rfl, rfl, haccepts⟩ := accepts_of_ofSchema h
  have htyped (t : Tuple) (ht : t ∈ ts) : t.schema.Agrees input ∧ t.Typed :=
    ⟨(hts t ht).1, (hts t ht).2.typed⟩
  have hitems : aggregation.Items ts
      (ts.map fun t => (t.groupKey aggregation.group, t.integerAt aggregation.field)) := by
    rw [Items, List.forall₂_map_right_iff, List.forall₂_same]
    exact fun t ht => haccepts.item_eq (htyped t ht).1 (htyped t ht).2
  obtain ⟨groups, hmerge, hsums⟩ := forM_merge hitems (Groups.sums_empty _) (by simpa using hfew)
  have hrows := (rows_eq hsums).trans (haccepts.itemRows_eq htyped rfl)
  refine ⟨groups, hmerge, hrows, ?_, ?_, ?_, ?_⟩
  · simp only [← refusal?_eq_none, ← List.findSome?_eq_none_iff]
    rw [hrows]
    cases (groupKeys aggregation.group ts).findSome? fun key => aggregation.refusal? key (exact key) <;>
      simp
  · intro hgroup
    rw [hgroup]
    exact groupKeys_none ts
  · intro hfunction key
    apply AggregateFunction.bits32_value hfunction
    intro value hmem
    obtain ⟨t, _, rfl⟩ := List.mem_map.mp hmem
    exact t.bits32_integerAt aggregation.field
  · intro hvalid key hkey
    obtain ⟨t, ht, rfl⟩ := List.mem_map.mp (List.mem_eraseDups.mp hkey)
    exact haccepts.wideKey?_of_valid (hts t ht).1 (hvalid t ht)

/-- The running sum of the first group leaves the 32 bits and comes back. -/
theorem rows_of_merged_wide_sum :
    let input : Schema := ⟨[{ type := .char 4 }, { type := .integer }], List.cons_ne_nil _ _⟩
    let t (key : String) (value : Int32) : Tuple := ⟨input, [.str key, .int value], none⟩
    let ts := [t "a" 2147483647, t "b" (-7), t "a" 2147483647, t "a" (-2147483647)]
    let output : Schema := ⟨[{ type := .char 4 }, { type := .integer, name := some "sum()" }],
      List.cons_ne_nil _ _⟩
    let aggregation : Aggregation := { function := .sum, field := 1, group := some 0, schema := output }
    ofSchema input (some 0) 1 .sum = .ok aggregation ∧
      (∀ t ∈ ts, t.schema.Agrees input ∧ t.Built) ∧ ts.length < 4294967296 ∧
      ∃ groups, ts.forM aggregation.merge ⟨[]⟩ = .ok () groups ∧
        aggregation.rows groups = .ok [⟨output, [.str "a", .int 2147483647], none⟩,
          ⟨output, [.str "b", .int (-7)], none⟩] := by
  intro input t ts output aggregation
  have haggregation : ofSchema input (some 0) 1 .sum = .ok aggregation := rfl
  have hvalid : ∀ t ∈ ts, t.schema.Agrees input ∧ t.Valid := by decide
  have hts (t : Tuple) (ht : t ∈ ts) : t.schema.Agrees input ∧ t.Built :=
    ⟨(hvalid t ht).1, Tuple.Valid.built (hvalid t ht).2⟩
  have hfew : ts.length < 4294967296 := by decide
  obtain ⟨groups, hmerge, hrows, _⟩ := rows_of_merged haggregation hts hfew
  have haccepted : (groupKeys (some 0) ts).findSome? (fun key =>
      aggregation.refusal? key (exactValue .sum (some 0) 1 ts key)) = none := by decide +kernel
  rw [haccepted] at hrows
  exact ⟨haggregation, hts, hfew, groups, hmerge, hrows⟩

/-- A key that was read from a byte that is no text takes three bytes. It is merged and counted, and then
it is too wide for its column. -/
theorem no_row_of_wide_key :
    let input : Schema := ⟨[{ type := .char 1 }], List.cons_ne_nil _ _⟩
    let key : Field := .str "\uFFFD"
    let t : Tuple := ⟨input, [key], none⟩
    ∃ aggregation groups, Tuple.decode input [0, 0, 0, 1, 0xFF] = some t ∧
      ofSchema input (some 0) 0 .count = .ok aggregation ∧
      [t].forM aggregation.merge ⟨[]⟩ = .ok () groups ∧ groupKeys (some 0) [t] = [some key] ∧
      exactValue .count (some 0) 0 [t] (some key) = 1 ∧
      aggregation.rows groups = .error (.fieldTooLong 3 1) := by
  intro input key t
  refine ⟨_, _, by decide +kernel, rfl, rfl, by decide +kernel, by decide +kernel, by decide +kernel⟩

/-- Averages are truncated toward zero. -/
example : exactValue .avg none 0 [⟨⟨[{ type := .integer }], List.cons_ne_nil _ _⟩, [.int (-3)], none⟩,
    ⟨⟨[{ type := .integer }], List.cons_ne_nil _ _⟩, [.int (-4)], none⟩] none = -3 := by decide

end Aggregation
end RowStore
