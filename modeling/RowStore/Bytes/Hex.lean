import RowStore.Bytes.Word

/-!
# Hexadecimal

Bytes are shown as two lower-case digits each. Reading what is shown gives the bytes back.
-/
namespace RowStore.Hex

def digit (n : Nat) : Char := Char.ofNat (if n < 10 then 48 + n else 87 + n)

/-- The value of a digit in lower case. -/
def value? (c : Char) : Option Nat :=
  if 48 ≤ c.toNat ∧ c.toNat ≤ 57 then some (c.toNat - 48)
  else if 97 ≤ c.toNat ∧ c.toNat ≤ 102 then some (c.toNat - 87)
  else none

def encodeChars (data : Bytes) : List Char :=
  data.flatMap fun b => [digit (b.toNat / 16), digit (b.toNat % 16)]

def decodeChars : List Char → Option Bytes
  | [] => some []
  | [_] => none
  | a :: b :: rest =>
    match value? a, value? b with
    | some high, some low => (decodeChars rest).map (UInt8.ofNat (high * 16 + low) :: ·)
    | _, _ => none

def encode (data : Bytes) : String := String.ofList (encodeChars data)

def decode (text : String) : Option Bytes := decodeChars text.toList

private theorem value?_digit : ∀ n < 16, value? (digit n) = some n := by decide

theorem decode_encode (data : Bytes) : decode (encode data) = some data := by
  rw [decode, encode, String.toList_ofList]
  induction data with
  | nil => rfl
  | cons b rest ih =>
    have hb := b.toNat_lt
    have hback : UInt8.ofNat (b.toNat / 16 * 16 + b.toNat % 16) = b := by
      rw [Nat.div_add_mod']
      exact UInt8.ofNat_toNat
    simp only [encodeChars, List.flatMap_cons, List.cons_append, List.nil_append, decodeChars,
      value?_digit _ (show b.toNat / 16 < 16 by omega), value?_digit _ (show b.toNat % 16 < 16 by omega),
      hback] at ih ⊢
    rw [ih]
    rfl

end RowStore.Hex
