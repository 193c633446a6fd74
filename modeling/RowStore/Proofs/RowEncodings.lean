import RowStore.Proofs.CheckedReads

/-!
# The encoding of rows

A tuple is stored as the cells of its fields one after the other, so joined schemas store their parts
one after the other, and names have no part in it. The main statement says that a tuple that was made
and then changed is stored in the size that was recorded for its schema and read back whatever follows,
that reading refuses only data that are too short, and that a field that does not fit its column is
refused wherever it turns up.
-/
namespace RowStore

theorem Schema.fieldType_eq (schema : Schema) (index : Nat) :
    schema.fieldType index = match schema.types[index]? with
      | some type => .ok type
      | none => .error (.fieldIndexOutOfRange index schema.fieldCount) := by
  rw [fieldType, column, types, List.getElem?_map]
  cases schema.columns[index]? <;> rfl

namespace Tuple

/-- A change of a tuple. -/
inductive Edit where
  | setField (index : Nat) (field : Field)
  | resetSchema (schema : Schema)

namespace Edit

def perform (t : Tuple) : Edit → Except StoreError Tuple
  | .setField index field => t.setField index field
  | .resetSchema schema => t.resetSchema schema

/-- The tuple that the change leaves; one that is refused leaves the tuple as it was. -/
def leaves (t : Tuple) (edit : Edit) : Tuple :=
  match edit.perform t with
  | .ok changed => changed
  | .error _ => t

end Edit

/-- The refusal of a field that does not fit its column. -/
def refusal (index : Nat) (field : Field) (type : ColumnType) : StoreError :=
  match field, type with
  | .str value, .char width => .fieldTooLong value.utf8ByteSize width.toNat
  | field, type => .typeMismatch index type.text field.type.text

/-- The field with that number is the first one that does not fit its column. -/
inductive FirstMisfit : List Field → List ColumnType → Nat → Field → ColumnType → Prop
  | here {field : Field} {type : ColumnType} {fields : List Field} {types : List ColumnType}
      (misfit : field.fits type = false) : FirstMisfit (field :: fields) (type :: types) 0 field type
  | later {head field : Field} {headType type : ColumnType} {fields : List Field}
      {types : List ColumnType} {index : Nat} (fits : head.fits headType = true)
      (rest : FirstMisfit fields types index field type) :
      FirstMisfit (head :: fields) (headType :: types) (index + 1) field type

variable {t t' : Tuple} {schema : Schema} {fields : List Field} {types : List ColumnType} {index i : Nat}
  {field : Field} {type : ColumnType}

theorem valid_iff_getElem? : t.Valid ↔ t.fields.length = t.schema.types.length ∧
    ∀ (i : Nat) (field : Field) (type : ColumnType), t.fields[i]? = some field →
      t.schema.types[i]? = some type → field.fits type = true := by
  refine and_congr_right fun _ => ⟨fun h i field type hfield htype => ?_, fun h pair hpair => ?_⟩
  · exact h (field, type) (List.mem_of_getElem? (List.getElem?_zip_eq_some.mpr ⟨hfield, htype⟩))
  · obtain ⟨i, hi⟩ := List.mem_iff_getElem?.mp hpair
    obtain ⟨hfield, htype⟩ := List.getElem?_zip_eq_some.mp hi
    exact h i pair.1 pair.2 hfield htype

theorem checkField_of_misfit (h : field.fits type = false) (index : Nat) :
    checkField index field type = .error (refusal index field type) := by
  unfold checkField
  rw [if_neg (Bool.eq_false_iff.mp h)]
  cases field <;> cases type <;> rfl

theorem setField_of_fits (htype : t.schema.types[index]? = some type) (h : field.fits type = true) :
    t.setField index field = .ok { t with fields := t.fields.set index field } := by
  simp only [setField, Schema.fieldType_eq, htype, checkField_of_fits h]

theorem setField_of_misfit (htype : t.schema.types[index]? = some type) (h : field.fits type = false) :
    t.setField index field = .error (refusal index field type) := by
  simp only [setField, Schema.fieldType_eq, htype, checkField_of_misfit h]

theorem setField_eq_ok (h : t.setField index field = .ok t') :
    ∃ type, t.schema.types[index]? = some type ∧ field.fits type = true ∧
      t' = { t with fields := t.fields.set index field } := by
  cases htype : t.schema.types[index]? with
  | none =>
    rw [setField, Schema.fieldType_eq, htype] at h
    cases h
  | some type =>
    cases hfits : field.fits type with
    | false =>
      rw [setField_of_misfit htype hfits] at h
      cases h
    | true =>
      rw [setField_of_fits htype hfits] at h
      cases h
      exact ⟨type, rfl, hfits, rfl⟩

theorem Valid.setField (h : t.Valid) (hset : t.setField index field = .ok t') :
    t'.Valid ∧ t'.schema.Agrees t.schema := by
  obtain ⟨type, htype, hfits, rfl⟩ := setField_eq_ok hset
  rw [valid_iff_getElem?] at h
  refine ⟨valid_iff_getElem?.mpr ⟨by rw [List.length_set]; exact h.1, fun i other type' hother htype' => ?_⟩,
    rfl⟩
  -- The column that was set takes the checked field, all others keep theirs.
  rw [List.getElem?_set] at hother
  by_cases hi : index = i
  · subst hi
    have hsame : type = type' := Option.some.inj (htype.symm.trans htype')
    rw [if_pos rfl, Option.ite_none_right_eq_some, Option.some.injEq] at hother
    rw [← hother.2, ← hsame]
    exact hfits
  · rw [if_neg hi] at hother
    exact h.2 i other type' hother htype'

theorem Valid.congr (h : t.Valid) (hagrees : t'.schema.Agrees t.schema) (hfields : t'.fields = t.fields) :
    t'.Valid := by
  have htypes : t'.schema.types = t.schema.types := hagrees
  rw [Valid, htypes, hfields]
  exact h

theorem resetSchema_of_agrees (h : schema.Agrees t.schema) :
    t.resetSchema schema = .ok { t with schema } := if_pos h

theorem Valid.leaves (h : t.Valid) (edit : Edit) :
    (edit.leaves t).Valid ∧ (edit.leaves t).schema.Agrees t.schema := by
  rw [Edit.leaves]
  split
  · next changed hchanged =>
    cases edit with
    | setField index field => exact h.setField hchanged
    | resetSchema schema =>
      by_cases hagrees : schema.Agrees t.schema
      · rw [Edit.perform, resetSchema_of_agrees hagrees] at hchanged
        cases hchanged
        exact ⟨h.congr hagrees rfl, hagrees⟩
      · rw [Edit.perform, resetSchema, if_neg hagrees] at hchanged
        cases hchanged
  · exact ⟨h, rfl⟩

theorem Valid.foldl_leaves (h : t.Valid) (edits : List Edit) :
    (edits.foldl Edit.leaves t).Valid ∧ (edits.foldl Edit.leaves t).schema.Agrees t.schema := by
  induction edits generalizing t with
  | nil => exact ⟨h, rfl⟩
  | cons edit edits ih =>
    obtain ⟨hvalid, hagrees⟩ := h.leaves edit
    obtain ⟨hrest, hagrees'⟩ := ih hvalid
    exact ⟨hrest, Eq.trans hagrees' hagrees⟩

theorem encodeFields_of_index {data : Bytes} (h : encodeFields index fields types = .ok data) (i : Nat) :
    encodeFields i fields types = .ok data := by
  induction fields generalizing index i types data with
  | nil => cases types <;> exact h
  | cons field fields ih =>
    cases types with
    | nil => exact h
    | cons type types =>
      obtain ⟨head, tail, hhead, htail, hdata⟩ := encodeFields_cons_eq_ok.mp h
      exact encodeFields_cons_eq_ok.mpr ⟨head, tail, hhead, ih htail (i + 1), hdata⟩

theorem encodeFields_append {fields' : List Field} {types' : List ColumnType} {front back : Bytes}
    (hlength : fields.length = types.length) (hfront : encodeFields index fields types = .ok front)
    (hback : encodeFields i fields' types' = .ok back) :
    encodeFields index (fields ++ fields') (types ++ types') = .ok (front ++ back) := by
  induction fields generalizing index types front with
  | nil =>
    cases types with
    | nil =>
      -- In the whole the second part stands under other numbers than by itself.
      cases hfront
      exact encodeFields_of_index hback index
    | cons type types => cases hlength
  | cons field fields ih =>
    cases types with
    | nil => cases hlength
    | cons type types =>
      obtain ⟨head, tail, hhead, htail, rfl⟩ := encodeFields_cons_eq_ok.mp hfront
      exact encodeFields_cons_eq_ok.mpr
        ⟨head, tail ++ back, hhead, ih (Nat.succ.inj hlength) htail, (List.append_assoc _ _ _).symm⟩

theorem Valid.parts {a b : Schema} (h : t.Valid) (hjoined : t.schema.Agrees (a.merge b)) :
    Valid ⟨a, t.fields.take a.fieldCount, none⟩ ∧ Valid ⟨b, t.fields.drop a.fieldCount, none⟩ := by
  have htypes : t.schema.types = a.types ++ b.types := hjoined.trans (Schema.types_merge a b)
  obtain ⟨hlength, hfits⟩ := h
  rw [htypes, List.length_append, a.length_types] at hlength
  have hfront : (t.fields.take a.fieldCount).length = a.types.length := by
    rw [List.length_take_of_le (by omega), a.length_types]
  have hback : (t.fields.drop a.fieldCount).length = b.types.length := by
    rw [List.length_drop, hlength, Nat.add_sub_cancel_left]
  have hzip : t.fields.zip t.schema.types =
      (t.fields.take a.fieldCount).zip a.types ++ (t.fields.drop a.fieldCount).zip b.types := by
    rw [← List.zip_append hfront, List.take_append_drop, htypes]
  rw [hzip] at hfits
  exact ⟨⟨hfront, fun pair hmem => hfits pair (List.mem_append_left _ hmem)⟩,
    hback, fun pair hmem => hfits pair (List.mem_append_right _ hmem)⟩

theorem fit_or_firstMisfit (fields : List Field) (types : List ColumnType) :
    (∀ pair ∈ fields.zip types, pair.1.fits pair.2 = true) ∨
      ∃ index field type, FirstMisfit fields types index field type := by
  induction fields generalizing types with
  | nil => exact .inl fun pair hmem => by cases hmem
  | cons field fields ih =>
    cases types with
    | nil => exact .inl fun pair hmem => by cases hmem
    | cons type types =>
      cases hfits : field.fits type with
      | false => exact .inr ⟨0, field, type, .here hfits⟩
      | true =>
        rcases ih types with hrest | ⟨index, other, type', hrest⟩
        · exact .inl (List.forall_mem_cons.mpr ⟨hfits, hrest⟩)
        · exact .inr ⟨index + 1, other, type', .later hfits hrest⟩

theorem FirstMisfit.checkFields_eq (h : FirstMisfit fields types i field type) (index : Nat) :
    checkFields index fields types = .error (refusal (index + i) field type) := by
  induction h generalizing index with
  | here misfit => rw [checkFields, checkField_of_misfit misfit]; rfl
  | later fits _ ih =>
    rw [checkFields, checkField_of_fits fits]
    exact (ih (index + 1)).trans (by rw [Nat.add_assoc, Nat.add_comm 1])

theorem FirstMisfit.encodeFields_eq (h : FirstMisfit fields types i field type) (index : Nat) :
    encodeFields index fields types = .error (.typeMismatch (index + i) type.text field.type.text) := by
  induction h generalizing index with
  | @here field type fields types misfit =>
    have hnone : field.encode type = none := by
      rw [← Option.not_isSome_iff_eq_none, Field.isSome_encode, misfit]
      exact Bool.false_ne_true
    rw [encodeFields, hnone]
    rfl
  | @later head field headType type fields types i fits _ ih =>
    obtain ⟨data, hdata⟩ := Option.isSome_iff_exists.mp ((Field.isSome_encode head headType).trans fits)
    rw [encodeFields, hdata]
    dsimp only
    rw [ih (index + 1), Nat.add_assoc, Nat.add_comm 1]
    rfl

theorem refused_of_not_valid (hagrees : t.schema.Agrees schema) (hcomplete : t.Complete) (h : ¬ t.Valid) :
    ∃ index field type, FirstMisfit t.fields schema.types index field type ∧
      ofFields schema t.fields = .error (refusal index field type) ∧
      t.encode = .error (.typeMismatch index type.text field.type.text) := by
  have htypes : t.schema.types = schema.types := hagrees
  rcases fit_or_firstMisfit t.fields t.schema.types with hfits | ⟨index, field, type, hfirst⟩
  · exact absurd ⟨hcomplete, hfits⟩ h
  · rw [htypes] at hfirst
    have hcount : t.fields.length = schema.fieldCount := by
      rw [hcomplete, htypes, schema.length_types]
    refine ⟨index, field, type, hfirst, ?_, ?_⟩
    · rw [ofFields, if_pos hcount, hfirst.checkFields_eq, Nat.zero_add]
    · rw [encode, htypes, hfirst.encodeFields_eq, Nat.zero_add]

theorem checked_fields_eq {offset : Nat} {data : Bytes} (h : offset ≤ data.length) :
    Checked.fields types offset data = .ok (decodeFields types (data.drop offset)) := by
  -- A field leaves the offset inside the data, which is what the slice of the next one needs.
  induction types generalizing offset with
  | nil => rfl
  | cons type types ih =>
    rw [Checked.fields, Checked.slice_rest h, Checked.ok_bind, decodeFields]
    by_cases hsize : type.size ≤ (data.drop offset).length
    · have hnext : offset + type.size ≤ data.length := by
        rw [List.length_drop] at hsize
        omega
      rw [Checked.field_eq hsize, Checked.ok_bind, Cell.decode_eq_value hsize]
      dsimp only
      rw [ih hnext, List.drop_drop]
      rfl
    · have hnone : Field.decode type (data.drop offset) = none := by
        rw [← Option.not_isSome_iff_eq_none, Field.isSome_decode, decide_eq_true_eq]
        exact hsize
      rw [Checked.field, if_pos (Nat.lt_of_not_le hsize), hnone]
      rfl

theorem decode_eq_none_iff {data : Bytes} : decode schema data = none ↔ data.length < schema.size := by
  rw [← Option.not_isSome_iff_eq_none, isSome_decode, decide_eq_true_eq, Nat.not_le]

/-- The data are the stored form of the tuple. They have the size of its schema, and they are read back
under every schema of the same types whatever follows. Under other names the tuple is stored alike, and
under joined schemas as its parts. -/
structure StoredAs (t : Tuple) (data : Bytes) : Prop where
  encode : t.encode = .ok data
  length : ∀ (other : Schema) (size : Nat), other.Agrees t.schema → other.Made size → data.length = size
  decode : ∀ (other : Schema) (rest : Bytes), other.Agrees t.schema →
    Tuple.decode other (data ++ rest) = some { schema := other, fields := t.fields }
  renamed : ∀ other : Schema, other.Agrees t.schema → t.resetSchema other = .ok { t with schema := other } ∧
    Tuple.encode { t with schema := other } = .ok data
  parts : ∀ a b : Schema, t.schema.Agrees (a.merge b) → ∃ (left right : Tuple) (front back : Bytes),
    ofFields a (t.fields.take a.fieldCount) = .ok left ∧
    ofFields b (t.fields.drop a.fieldCount) = .ok right ∧
    left.encode = .ok front ∧ right.encode = .ok back ∧ data = front ++ back

theorem Valid.storedAs (h : t.Valid) : ∃ data, t.StoredAs data := by
  obtain ⟨data, hdata, hlength, hback⟩ := encode_of_valid h
  refine ⟨data, hdata, fun other size hagrees hmade => ?_, fun other rest hagrees => ?_,
    fun other hagrees => ⟨resetSchema_of_agrees hagrees, ?_⟩, fun a b hjoined => ?_⟩
  · rw [hlength, hmade.size_eq, hagrees.size_eq]
  · rw [Tuple.decode, hagrees, hback]
    rfl
  · rw [Tuple.encode, hagrees]
    exact hdata
  · obtain ⟨hleft, hright⟩ := h.parts hjoined
    obtain ⟨front, hfront, -⟩ := encode_of_valid hleft
    obtain ⟨back, hback, -⟩ := encode_of_valid hright
    refine ⟨_, _, front, back, ofFields_of_valid hleft, ofFields_of_valid hright, hfront, hback, ?_⟩
    have happend := encodeFields_append hleft.1 hfront hback
    rw [← Schema.types_merge, List.take_append_drop, ← hjoined] at happend
    exact Except.ok.inj (hdata.symm.trans happend)

/-- However a schema was made, the size recorded for it is the sum of the sizes of its columns. Each tuple
made of it can be stored, also after any changes, and its stored form has that size. Reading fails on data
that are shorter, and only on these, and it meets no fault. A field that does not fit its column is refused
when a tuple is made, when it is changed and when it is stored. -/
theorem stored_of_made {size : Nat} (hmade : schema.Made size) :
    size = (schema.columns.map Column.size).sum ∧
      (∀ fields t, ofFields schema fields = .ok t → ∀ edits : List Edit,
        (edits.foldl Edit.leaves t).schema.Agrees schema ∧
          ∃ data, (edits.foldl Edit.leaves t).StoredAs data ∧ data.length = size) ∧
      (∀ data, (decode schema data = none ↔ data.length < size) ∧
        Checked.fields schema.types 0 data = .ok ((decode schema data).map Tuple.fields)) ∧
      (∀ t : Tuple, t.schema.Agrees schema → t.Complete → ¬ t.Valid →
        ∃ index field type, FirstMisfit t.fields schema.types index field type ∧
          ofFields schema t.fields = .error (refusal index field type) ∧
          t.encode = .error (.typeMismatch index type.text field.type.text)) ∧
      ∀ (t : Tuple) (index : Nat) (field : Field) (type : ColumnType), t.schema.Agrees schema →
        schema.types[index]? = some type → field.fits type = false →
          t.setField index field = .error (refusal index field type) := by
  refine ⟨by rw [Schema.sum_sizes, hmade.size_eq], fun fields t ht edits => ?_, fun data => ⟨?_, ?_⟩,
    fun t => refused_of_not_valid, fun t index field type hagrees htype hmisfit => ?_⟩
  · obtain ⟨hvalid, hschema⟩ := valid_of_ofFields ht
    obtain ⟨hleft, hagrees⟩ := hvalid.foldl_leaves edits
    rw [hschema] at hagrees
    obtain ⟨data, hstored⟩ := hleft.storedAs
    exact ⟨hagrees, data, hstored, hstored.length schema size hagrees.symm hmade⟩
  · rw [decode_eq_none_iff, hmade.size_eq]
  · rw [checked_fields_eq (Nat.zero_le _), List.drop_zero, decode]
    cases decodeFields schema.types data <;> rfl
  · rw [← hagrees] at htype
    exact setField_of_misfit htype hmisfit

/-- An integer and a text under a schema that was joined, the text changed twice, which succeeds once, and
the columns renamed. -/
theorem stored_of_made_joined :
    let left : Schema := ⟨[{ type := .integer, name := some "id" }], List.cons_ne_nil _ _⟩
    let right : Schema := ⟨[{ type := .char 5 }], List.cons_ne_nil _ _⟩
    let schema := (left.qualify "t").merge right
    let other : Schema := ⟨[{ type := .integer }, { type := .char 5, name := some "b" }], List.cons_ne_nil _ _⟩
    let made : Tuple := ⟨schema, [.int 7, .str ""], none⟩
    let edits : List Edit := [.setField 1 (.str "é"), .setField 1 (.str "abcdef"), .resetSchema other]
    let data : Bytes := [0, 0, 0, 7, 0, 0, 0, 2, 0xC3, 0xA9, 0, 0, 0]
    schema.Made 13 ∧ ofFields schema [.int 7, .str ""] = .ok made ∧
      edits.foldl Edit.leaves made = ⟨other, [.int 7, .str "é"], none⟩ ∧
      StoredAs ⟨other, [.int 7, .str "é"], none⟩ data ∧
      decode schema (data ++ [1, 2]) = some ⟨schema, [.int 7, .str "é"], none⟩ ∧
      decode schema (data.take 12) = none ∧
      made.setField 1 (.str "abcdef") = .error (.fieldTooLong 6 5) := by
  intro left right schema other made edits data
  have hleft : left.Made 4 :=
    .build (show (({} : SchemaBuilder).column "id" .integer).build = .ok left from rfl)
  have hright : right.Made 9 := .ofTypes (show Schema.ofTypes [.char 5] = .ok right from rfl)
  have hmade : schema.Made 13 := (hleft.qualify "t").merge hright
  obtain ⟨-, hstores, hreads, -, hrefuses⟩ := stored_of_made hmade
  have hnew : ofFields schema [.int 7, .str ""] = .ok made := rfl
  have hedits : edits.foldl Edit.leaves made = ⟨other, [.int 7, .str "é"], none⟩ := by decide +kernel
  obtain ⟨-, stored, hstored, -⟩ := hstores _ made hnew edits
  rw [hedits] at hstored
  have hdata : stored = data := Except.ok.inj (hstored.encode.symm.trans (by decide +kernel))
  rw [hdata] at hstored
  exact ⟨hmade, hnew, hedits, hstored, hstored.decode schema [1, 2] rfl, (hreads _).1.mpr (by decide),
    hrefuses made 1 _ _ rfl rfl (by decide)⟩

end Tuple
end RowStore
