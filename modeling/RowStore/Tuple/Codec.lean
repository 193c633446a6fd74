import RowStore.Field.Codec
import RowStore.Tuple.Basic

/-!
# Stored tuples

A tuple is stored as its fields in column order, without separators, so its size is that of the
schema. A valid tuple can always be stored, and reading it back gives the same fields, whatever
bytes follow.
-/
namespace RowStore.Tuple

/-- The stored fields from column `index` on, or the first one that does not fit. -/
def encodeFields : Nat → List Field → List ColumnType → Except StoreError Bytes
  | index, field :: fields, type :: types =>
    match field.encode type with
    | none => .error (.typeMismatch index type.text field.type.text)
    | some data => (encodeFields (index + 1) fields types).map (data ++ ·)
  | _, _, _ => .ok []

def encode (t : Tuple) : Except StoreError Bytes := encodeFields 0 t.fields t.schema.types

/-- One field for each type, read one after the other. -/
def decodeFields : List ColumnType → Bytes → Option (List Field)
  | [], _ => some []
  | type :: types, data =>
    match Field.decode type data with
    | none => none
    | some field => (decodeFields types (data.drop type.size)).map (field :: ·)

def decode (schema : Schema) (data : Bytes) : Option Tuple :=
  (decodeFields schema.types data).map fun fields => { schema, fields }

theorem encodeFields_cons_eq_ok {index : Nat} {field : Field} {fields : List Field} {type : ColumnType}
    {types : List ColumnType} {data : Bytes} :
    encodeFields index (field :: fields) (type :: types) = .ok data ↔
      ∃ head tail, field.encode type = some head ∧ encodeFields (index + 1) fields types = .ok tail ∧
        head ++ tail = data := by
  rw [encodeFields]
  cases field.encode type with
  | none => simp
  | some head => simp [map_eq_ok]

theorem encodeFields_of_fits (index : Nat) {fields : List Field} {types : List ColumnType}
    (hlen : fields.length = types.length)
    (hfits : ∀ pair ∈ fields.zip types, pair.1.fits pair.2 = true) :
    ∃ data, encodeFields index fields types = .ok data ∧
      data.length = ColumnType.totalSize types ∧
      ∀ rest, decodeFields types (data ++ rest) = some fields := by
  induction fields generalizing index types with
  | nil =>
    cases types with
    | nil => exact ⟨[], rfl, rfl, fun _ => rfl⟩
    | cons type types => simp at hlen
  | cons field fields ih =>
    cases types with
    | nil => simp at hlen
    | cons type types =>
      have hfield : (field.encode type).isSome = true := by
        rw [Field.isSome_encode]
        exact hfits (field, type) (by simp)
      obtain ⟨head, hhead⟩ := Option.isSome_iff_exists.mp hfield
      obtain ⟨tail, htail, hsum, hback⟩ := ih (index + 1) (by simpa using hlen)
        fun pair hpair => hfits pair (List.mem_cons_of_mem _ hpair)
      have hsize := Field.length_of_encode hhead
      refine ⟨head ++ tail, ?_, ?_, fun rest => ?_⟩
      · simp [encodeFields, hhead, htail, Except.map]
      · simp [hsize, hsum, ColumnType.totalSize]
      · rw [List.append_assoc, decodeFields, Field.decode_encode_append hhead, ← hsize,
          List.drop_left, hback]
        rfl

theorem encode_of_valid {t : Tuple} (h : t.Valid) :
    ∃ data, t.encode = .ok data ∧ data.length = t.schema.size ∧
      ∀ rest, decodeFields t.schema.types (data ++ rest) = some t.fields :=
  encodeFields_of_fits 0 h.1 h.2

theorem isSome_decodeFields (types : List ColumnType) (data : Bytes) :
    (decodeFields types data).isSome = decide (ColumnType.totalSize types ≤ data.length) := by
  induction types generalizing data with
  | nil => simp [decodeFields, ColumnType.totalSize]
  | cons type types ih =>
    have hone := Field.isSome_decode type data
    rw [decodeFields]
    cases hfield : Field.decode type data with
    | none =>
      rw [hfield] at hone
      have hlt : ¬ type.size ≤ data.length := by simpa using hone.symm
      have : ¬ type.size + ColumnType.totalSize types ≤ data.length := by omega
      simp [this, ColumnType.totalSize]
    | some field =>
      rw [hfield] at hone
      have hle : type.size ≤ data.length := by simpa using hone.symm
      rw [Option.isSome_map, ih, List.length_drop, decide_eq_decide, ColumnType.totalSize]
      omega

/-- Only data shorter than the schema cannot be read. -/
theorem isSome_decode (schema : Schema) (data : Bytes) :
    (decode schema data).isSome = decide (schema.size ≤ data.length) := by
  rw [decode, Option.isSome_map, isSome_decodeFields, Schema.size]

theorem length_of_decodeFields {types : List ColumnType} {data : Bytes} {fields : List Field}
    (h : decodeFields types data = some fields) : fields.length = types.length := by
  induction types generalizing data fields with
  | nil =>
    cases h
    rfl
  | cons type types ih =>
    rw [decodeFields] at h
    cases hfield : Field.decode type data with
    | none => simp [hfield] at h
    | some field =>
      simp only [hfield, Option.map_eq_some_iff] at h
      obtain ⟨tail, htail, rfl⟩ := h
      simp [ih htail]

end RowStore.Tuple
