/-!
# Four-byte words

Numbers are stored as four bytes, the most significant first. Reading what was written gives the
number back modulo 2^32, and a signed integer comes back unchanged.
-/
namespace RowStore

abbrev Bytes := List UInt8

namespace Word

def encode (n : Nat) : Bytes :=
  [UInt8.ofNat (n / 16777216), UInt8.ofNat (n / 65536), UInt8.ofNat (n / 256), UInt8.ofNat n]

/-- The word in the first four bytes; shorter data hold none and read as zero. -/
def decode : Bytes → Nat
  | a :: b :: c :: d :: _ =>
    a.toNat * 16777216 + b.toNat * 65536 + c.toNat * 256 + d.toNat
  | _ => 0

@[simp] theorem length_encode (n : Nat) : (encode n).length = 4 := rfl

theorem decode_encode_append (n : Nat) (rest : Bytes) :
    decode (encode n ++ rest) = n % 4294967296 := by
  simp only [encode, List.cons_append, decode, UInt8.toNat_ofNat']
  omega

theorem decode_lt (data : Bytes) : decode data < 4294967296 := by
  unfold decode
  split
  · next a b c d _ =>
    have := a.toNat_lt
    have := b.toNat_lt
    have := c.toNat_lt
    have := d.toNat_lt
    omega
  · omega

/-- Four bytes are the encoding of the word they hold. -/
theorem encode_decode (a b c d : UInt8) (rest : Bytes) :
    encode (decode (a :: b :: c :: d :: rest)) = [a, b, c, d] := by
  have := a.toNat_lt
  have := b.toNat_lt
  have := c.toNat_lt
  have := d.toNat_lt
  simp only [decode, encode, List.cons.injEq, and_true, ← UInt8.toNat_inj, UInt8.toNat_ofNat']
  omega

/-- Two's complement on the four bytes. -/
def encodeInt (v : Int32) : Bytes := encode v.toUInt32.toNat

def decodeInt (data : Bytes) : Int32 := (UInt32.ofNat (decode data)).toInt32

@[simp] theorem length_encodeInt (v : Int32) : (encodeInt v).length = 4 := rfl

theorem decodeInt_encodeInt_append (v : Int32) (rest : Bytes) :
    decodeInt (encodeInt v ++ rest) = v := by
  have h := v.toUInt32.toNat_lt
  rw [decodeInt, encodeInt, decode_encode_append, Nat.mod_eq_of_lt (by omega), UInt32.ofNat_toNat]
  rfl

end Word
end RowStore
