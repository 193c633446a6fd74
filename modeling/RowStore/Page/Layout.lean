/-!
# The layout of a page

A page holds slots of one size after a bitmap with a bit for each slot, rounded up to whole bytes.
The number of slots charges every slot its bytes and one bit; the rounding never costs a slot.
-/
namespace RowStore.Layout

/-- The number of slots of a page. -/
def slotCount (tupleSize pageSize : Nat) : Nat := pageSize * 8 / (tupleSize * 8 + 1)

/-- The bytes of the bitmap. -/
def headerSize (slots : Nat) : Nat := (slots + 7) / 8

/-- A slot number has sixteen bits. -/
def maxSlots : Nat := 65536

/-- Slots fit together with their bitmap, which is rounded up to whole bytes, up to the slot count and no
further. -/
theorem le_slotCount_iff (tupleSize pageSize slots : Nat) :
    slots ≤ slotCount tupleSize pageSize ↔ headerSize slots + slots * tupleSize ≤ pageSize := by
  rw [slotCount, Nat.le_div_iff_mul_le (Nat.succ_pos _), Nat.mul_succ, ← Nat.mul_assoc]
  unfold headerSize
  omega

/-- The bitmap and the slots lie inside the page. -/
theorem headerSize_add_slots_le (tupleSize pageSize : Nat) :
    headerSize (slotCount tupleSize pageSize) + slotCount tupleSize pageSize * tupleSize ≤ pageSize :=
  (le_slotCount_iff ..).mp (Nat.le_refl _)

/-- Every slot lies inside the page. -/
theorem slot_succ_le {tupleSize pageSize slot : Nat} (h : slot < slotCount tupleSize pageSize) :
    headerSize (slotCount tupleSize pageSize) + (slot + 1) * tupleSize ≤ pageSize :=
  Nat.le_trans (Nat.add_le_add_left (Nat.mul_le_mul_right tupleSize h) _)
    (headerSize_add_slots_le tupleSize pageSize)

end RowStore.Layout
