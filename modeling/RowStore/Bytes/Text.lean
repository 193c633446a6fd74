import RowStore.Bytes.Word

/-!
# Text as bytes

A text is stored as its UTF-8 bytes. Reading is lenient: bytes that begin no character are replaced,
one replacement mark for each longest run that could have been the beginning of a character. The
main statement says that reading what was written gives the text back.
-/
namespace RowStore.Text

/-- The UTF-8 bytes of a text. -/
def encode (text : String) : Bytes := text.toList.flatMap String.utf8EncodeChar

theorem length_encode (text : String) : (encode text).length = text.utf8ByteSize := by
  have h : text.toList.utf8Encode.size = text.toByteArray.size := by rw [String.utf8Encode_toList]
  rw [← String.size_toByteArray, ← h]
  simp [encode, List.utf8Encode]

/-- The mark put in the place of bytes that are no text. -/
def replacement : Char := Char.ofNat 0xFFFD

/-- The byte carries six further bits of a character. -/
def isContinuation (b : UInt8) : Bool := 0x80 ≤ b && b ≤ 0xBF

/-- The second byte is allowed after the first: it completes no number with a shorter encoding,
none in the surrogate range and none past the last character. -/
def continues (first second : UInt8) : Bool :=
  if first < 0xC2 then false
  else if first < 0xE0 then isContinuation second
  else if first = 0xE0 then 0xA0 ≤ second && second ≤ 0xBF
  else if first = 0xED then 0x80 ≤ second && second ≤ 0x9F
  else if first < 0xF0 then isContinuation second
  else if first = 0xF0 then 0x90 ≤ second && second ≤ 0xBF
  else if first < 0xF4 then isContinuation second
  else if first = 0xF4 then 0x80 ≤ second && second ≤ 0x8F
  else false

def char2 (a b : UInt8) : Char := Char.ofNat (a.toNat % 32 * 64 + b.toNat % 64)

def char3 (a b c : UInt8) : Char :=
  Char.ofNat (a.toNat % 16 * 4096 + b.toNat % 64 * 64 + c.toNat % 64)

def char4 (a b c d : UInt8) : Char :=
  Char.ofNat (a.toNat % 8 * 262144 + b.toNat % 64 * 4096 + c.toNat % 64 * 64 + d.toNat % 64)

/-- The characters of the bytes, with a replacement mark for each run that is no character. -/
def decodeChars : Bytes → List Char
  | [] => []
  | a :: rest =>
    if a < 0x80 then Char.ofNat a.toNat :: decodeChars rest
    else match rest with
      | [] => [replacement]
      | b :: rest₂ =>
        if continues a b then
          if a < 0xE0 then char2 a b :: decodeChars rest₂
          else match rest₂ with
            | [] => [replacement]
            | c :: rest₃ =>
              if isContinuation c then
                if a < 0xF0 then char3 a b c :: decodeChars rest₃
                else match rest₃ with
                  | [] => [replacement]
                  | d :: rest₄ =>
                    if isContinuation d then char4 a b c d :: decodeChars rest₄
                    else replacement :: decodeChars (d :: rest₄)
              else replacement :: decodeChars (c :: rest₃)
        else replacement :: decodeChars (b :: rest₂)

def decode (data : Bytes) : String := String.ofList (decodeChars data)

private theorem lt_ofNat_iff (n m : Nat) (hn : n < 256) (hm : m < 256) :
    UInt8.ofNat n < UInt8.ofNat m ↔ n < m := by
  rw [UInt8.lt_iff_toNat_lt, UInt8.toNat_ofNat', UInt8.toNat_ofNat']
  omega

private theorem isContinuation_tail (n : Nat) : isContinuation (UInt8.ofNat (n % 64 + 128)) = true := by
  have hn : n % 64 < 64 := Nat.mod_lt _ (by decide)
  generalize n % 64 = k at hn
  revert k
  decide

private theorem continues_two (n : Nat) (second : UInt8) (hlow : 2 ≤ n) (hhigh : n < 32)
    (h : isContinuation second = true) : continues (UInt8.ofNat (n + 192)) second = true := by
  have h1 : ¬ UInt8.ofNat (n + 192) < 0xC2 := by
    rw [show (0xC2 : UInt8) = UInt8.ofNat 194 from rfl, lt_ofNat_iff _ _ (by omega) (by omega)]
    omega
  have h2 : UInt8.ofNat (n + 192) < 0xE0 := by
    rw [show (0xE0 : UInt8) = UInt8.ofNat 224 from rfl, lt_ofNat_iff _ _ (by omega) (by omega)]
    omega
  rw [continues, if_neg h1, if_pos h2, h]

private theorem continues_three : ∀ a < 16, ∀ b < 64, 32 ≤ a * 64 + b → ¬ (54 * 16 ≤ a * 64 + b ∧ a * 64 + b < 56 * 16) →
    continues (UInt8.ofNat (a + 224)) (UInt8.ofNat (b + 128)) = true := by
  decide

private theorem continues_four : ∀ a < 8, ∀ b < 64, 16 ≤ a * 64 + b → a * 64 + b < 272 →
    continues (UInt8.ofNat (a + 240)) (UInt8.ofNat (b + 128)) = true := by
  decide

/-- Reading one written character takes exactly its bytes. -/
theorem decodeChars_encodeChar_append (c : Char) (rest : Bytes) :
    decodeChars (String.utf8EncodeChar c ++ rest) = c :: decodeChars rest := by
  have hvalid : c.val.toNat < 55296 ∨ 57343 < c.val.toNat ∧ c.val.toNat < 1114112 := c.valid
  have hback : ∀ n, n = c.val.toNat → Char.ofNat n = c := fun n hn => by
    subst hn
    exact Char.ofNat_toNat c
  unfold String.utf8EncodeChar
  generalize c.val.toNat = v at hvalid hback
  have h80 : (0x80 : UInt8) = UInt8.ofNat 128 := rfl
  have hE0 : (0xE0 : UInt8) = UInt8.ofNat 224 := rfl
  have hF0 : (0xF0 : UInt8) = UInt8.ofNat 240 := rfl
  by_cases h1 : v ≤ 127
  · simp only [h1, if_true, List.cons_append, List.nil_append]
    rw [decodeChars.eq_def]
    simp only
    rw [if_pos (by rw [h80, lt_ofNat_iff _ _ (by omega) (by omega)]; omega), hback]
    rw [UInt8.toNat_ofNat']
    omega
  by_cases h2 : v ≤ 2047
  · simp only [h1, h2, if_true, if_false, List.cons_append, List.nil_append]
    rw [decodeChars.eq_def]
    simp only
    rw [if_neg (by rw [h80, lt_ofNat_iff _ _ (by omega) (by omega)]; omega),
      if_pos (continues_two _ _ (by omega) (by omega) (isContinuation_tail v)),
      if_pos (by rw [hE0, lt_ofNat_iff _ _ (by omega) (by omega)]; omega), char2, hback]
    simp only [UInt8.toNat_ofNat']
    omega
  by_cases h3 : v ≤ 65535
  · simp only [h1, h2, h3, if_true, if_false, List.cons_append, List.nil_append]
    rw [decodeChars.eq_def]
    simp only
    rw [if_neg (by rw [h80, lt_ofNat_iff _ _ (by omega) (by omega)]; omega),
      if_pos (continues_three _ (by omega) _ (by omega) (by omega) (by omega)),
      if_neg (by rw [hE0, lt_ofNat_iff _ _ (by omega) (by omega)]; omega),
      if_pos (isContinuation_tail v),
      if_pos (by rw [hF0, lt_ofNat_iff _ _ (by omega) (by omega)]; omega), char3, hback]
    simp only [UInt8.toNat_ofNat']
    omega
  · simp only [h1, h2, h3, if_false, List.cons_append, List.nil_append]
    rw [decodeChars.eq_def]
    simp only
    rw [if_neg (by rw [h80, lt_ofNat_iff _ _ (by omega) (by omega)]; omega),
      if_pos (continues_four _ (by omega) _ (by omega) (by omega) (by omega)),
      if_neg (by rw [hE0, lt_ofNat_iff _ _ (by omega) (by omega)]; omega),
      if_pos (isContinuation_tail _),
      if_neg (by rw [hF0, lt_ofNat_iff _ _ (by omega) (by omega)]; omega),
      if_pos (isContinuation_tail v), char4, hback]
    simp only [UInt8.toNat_ofNat']
    omega

/-- Reading the bytes of a text gives the text back. -/
theorem decode_encode (text : String) : decode (encode text) = text := by
  have h (cs : List Char) : decodeChars (cs.flatMap String.utf8EncodeChar) = cs := by
    induction cs with
    | nil => rfl
    | cons c cs ih => rw [List.flatMap_cons, decodeChars_encodeChar_append, ih]
  rw [decode, encode, h, String.ofList_toList]

end RowStore.Text
