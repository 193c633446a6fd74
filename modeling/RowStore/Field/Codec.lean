import RowStore.Bytes.Text
import RowStore.Field.Basic

/-!
# Stored fields

An integer is stored as one word; a text as a length word, its bytes, and zeros up to the width of
its column. A stored value has the size of its column, and reading it back gives the value.
-/
namespace RowStore.Field

/-- The stored form, when the value fits the column. -/
def encode : Field → ColumnType → Option Bytes
  | .int value, .integer => some (Word.encodeInt value)
  | .str value, .char width =>
    let data := Text.encode value
    if data.length ≤ width.toNat then
      some (Word.encode data.length ++ data ++ List.replicate (width.toNat - data.length) 0)
    else none
  | _, _ => none

/-- The value at the start of the data; a length word past the width counts as the width. -/
def decode (type : ColumnType) (data : Bytes) : Option Field :=
  if data.length < type.size then none
  else match type with
    | .integer => some (.int (Word.decodeInt data))
    | .char width =>
      some (.str (Text.decode ((data.drop 4).take (min (Word.decode data) width.toNat))))

theorem isSome_encode (field : Field) (type : ColumnType) :
    (field.encode type).isSome = field.fits type := by
  cases field <;> cases type <;> simp only [encode, fits, Option.isSome_some, Option.isSome_none]
  rw [Text.length_encode]
  split <;> simp_all

theorem length_of_encode {field : Field} {type : ColumnType} {data : Bytes}
    (h : field.encode type = some data) : data.length = type.size := by
  cases field with
  | int value =>
    cases type with
    | integer =>
      cases h
      rfl
    | char width => cases h
  | str value =>
    cases type with
    | integer => cases h
    | char width =>
      simp only [encode, Option.ite_none_right_eq_some, Option.some.injEq] at h
      obtain ⟨hle, rfl⟩ := h
      simp only [List.length_append, Word.length_encode, List.length_replicate, ColumnType.size]
      omega

theorem isSome_decode (type : ColumnType) (data : Bytes) :
    (decode type data).isSome = decide (type.size ≤ data.length) := by
  unfold decode
  by_cases h : data.length < type.size
  · simp [h, Nat.not_le.mpr h]
  · rw [if_neg h]
    cases type <;> simp [Nat.le_of_not_lt h]

/-- Reading a stored value gives it back, whatever follows it. -/
theorem decode_encode_append {field : Field} {type : ColumnType} {data : Bytes}
    (h : field.encode type = some data) (rest : Bytes) :
    decode type (data ++ rest) = some field := by
  have hlen := length_of_encode h
  unfold decode
  rw [if_neg (by rw [List.length_append]; omega)]
  cases field with
  | int value =>
    cases type with
    | integer =>
      cases h
      simp only [Word.decodeInt_encodeInt_append]
    | char width => cases h
  | str value =>
    cases type with
    | integer => cases h
    | char width =>
      simp only [encode, Option.ite_none_right_eq_some, Option.some.injEq] at h
      obtain ⟨hle, rfl⟩ := h
      have hw := width.toNat_lt
      have hmod : (Text.encode value).length % 4294967296 = (Text.encode value).length :=
        Nat.mod_eq_of_lt (by omega)
      have hdrop (tail : Bytes) : (Word.encode (Text.encode value).length ++ tail).drop 4 = tail := by
        rw [← Word.length_encode (Text.encode value).length]
        exact List.drop_left
      simp only [List.append_assoc, Word.decode_encode_append, hdrop, hmod, Nat.min_eq_left hle,
        List.take_left, Text.decode_encode]

end RowStore.Field
