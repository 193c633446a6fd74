import RowStore.Bytes.Word

/-!
# Bitmaps

A bitmap numbers the bits of its bytes from the low bit of the first byte on. The main statement
says that setting one bit changes this bit and no other.
-/
namespace RowStore

structure Bitmap where
  bytes : Bytes
  deriving DecidableEq

namespace Bitmap

def zero (size : Nat) : Bitmap := ⟨List.replicate size 0⟩

/-- The bit is set; there are no set bits past the last byte. -/
def get (bitmap : Bitmap) (i : Nat) : Bool :=
  match bitmap.bytes[i / 8]? with
  | some b => b.toNat.testBit (i % 8)
  | none => false

/-- The first `count` bits. -/
def bits (bitmap : Bitmap) (count : Nat) : List Bool := (List.range count).map bitmap.get

/-- The byte in which only that bit is set. -/
def mask (k : Nat) : UInt8 := UInt8.ofNat (1 <<< k)

def set (bitmap : Bitmap) (i : Nat) (on : Bool) : Bitmap :=
  ⟨bitmap.bytes.modify (i / 8) fun b =>
    if on then b ||| mask (i % 8) else b &&& ~~~ mask (i % 8)⟩

@[simp] theorem length_set (bitmap : Bitmap) (i : Nat) (on : Bool) :
    (bitmap.set i on).bytes.length = bitmap.bytes.length := by
  simp [set]

@[simp] theorem get_zero (size i : Nat) : (zero size).get i = false := by
  unfold get zero
  split
  · next b h =>
    rw [List.getElem?_replicate] at h
    split at h
    · cases h
      simp
    · cases h
  · rfl

private theorem testBit_mask : ∀ k < 8, ∀ j < 8, (mask k).toNat.testBit j = decide (k = j) := by
  decide

private theorem testBit_not_mask : ∀ k < 8, ∀ j < 8, (~~~ mask k).toNat.testBit j = !decide (k = j) := by
  decide

theorem get_set (bitmap : Bitmap) (i j : Nat) (on : Bool) (h : i < bitmap.bytes.length * 8) :
    (bitmap.set i on).get j = if i = j then on else bitmap.get j := by
  have hi : i / 8 < bitmap.bytes.length := by omega
  have hmi : i % 8 < 8 := Nat.mod_lt _ (by decide)
  have hmj : j % 8 < 8 := Nat.mod_lt _ (by decide)
  simp only [get, set, List.getElem?_modify]
  by_cases hbyte : i / 8 = j / 8
  · have hj : j / 8 < bitmap.bytes.length := by omega
    simp only [hbyte, if_true, List.getElem?_eq_getElem hj, Option.map_eq_map, Option.map_some]
    have hij : (i % 8 = j % 8) = (i = j) := by
      apply propext
      omega
    cases on
    · simp only [Bool.false_eq_true, if_false, UInt8.toNat_and, Nat.testBit_and,
        testBit_not_mask _ hmi _ hmj, hij]
      by_cases h : i = j <;> simp [h]
    · simp only [if_true, UInt8.toNat_or, Nat.testBit_or, testBit_mask _ hmi _ hmj, hij]
      by_cases h : i = j <;> simp [h]
  · have hne : i ≠ j := fun he => hbyte (by rw [he])
    simp only [hbyte, if_false, hne]
    cases bitmap.bytes[j / 8]? <;> rfl

/-- Setting a bit leaves all other bytes. -/
theorem getElem?_set_ne (bitmap : Bitmap) {slot i : Nat} (on : Bool) (h : slot / 8 ≠ i) :
    (bitmap.set slot on).bytes[i]? = bitmap.bytes[i]? := by
  simp only [set, List.getElem?_modify, if_neg h]
  cases bitmap.bytes[i]? <;> rfl

/-- Bitmaps of one size are equal if their bits are. -/
theorem eq_of_get {a b : Bitmap} (hlength : a.bytes.length = b.bytes.length) (h : ∀ i, a.get i = b.get i) :
    a = b := by
  obtain ⟨bytes⟩ := a
  obtain ⟨bytes'⟩ := b
  refine congrArg Bitmap.mk (List.ext_getElem hlength fun i hi hi' => ?_)
  refine UInt8.toNat_inj.mp (Nat.eq_of_testBit_eq fun k => ?_)
  by_cases hk : k < 8
  · have hbit := h (i * 8 + k)
    have hbyte : (i * 8 + k) / 8 = i := by omega
    have hplace : (i * 8 + k) % 8 = k := by omega
    simpa only [get, hbyte, hplace, List.getElem?_eq_getElem hi, List.getElem?_eq_getElem hi'] using hbit
  · have hpast (byte : UInt8) : byte.toNat.testBit k = false :=
      Nat.testBit_lt_two_pow (Nat.lt_of_lt_of_le byte.toNat_lt
        (Nat.pow_le_pow_right (by decide) (Nat.le_of_not_lt hk)))
    rw [hpast, hpast]

end Bitmap
end RowStore
