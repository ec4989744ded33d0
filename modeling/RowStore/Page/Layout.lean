import RowStore.Schema

/-!
# Page layout

A page begins with one bit for each slot, in whole bytes, the first slot in the lowest bit. The slots follow, all of the
same width, and zeros fill the page. Slots are numbered with 16 bits.
-/

namespace RowStore.Layout

/-! ## Sizes -/

/-- The number of slots that 16 bits can number. -/
def maxSlots : Nat := 65536

/-- The number of slots of `width` bytes on a page of `size` bytes. Each slot is charged one bit for its flag. -/
def slotCount (size width : Nat) : Nat := min (size * 8 / (width * 8 + 1)) maxSlots

def headerBytes (slots : Nat) : Nat := (slots + 7) / 8

/-- The number of slots for rows of a schema. The number of bits of a page has to fit 64 bits. -/
def slotsFor (size : Nat) (schema : Schema) : Except Abort Nat :=
  if size * 8 < UInt64.size then .ok (slotCount size schema.width) else .error .wordOverflow

theorem slotCount_le_maxSlots (size width : Nat) : slotCount size width ≤ maxSlots :=
  Nat.min_le_right _ _

theorem slotCount_mul_le (size width : Nat) : slotCount size width * (width * 8 + 1) ≤ size * 8 :=
  Nat.le_trans (Nat.mul_le_mul_right _ (Nat.min_le_left _ _)) (Nat.div_mul_le_self _ _)

/-! ## Flags -/

/-- The bits of a byte, lowest first. -/
def bitsOfByte (b : UInt8) : List Bool := (List.range 8).map b.toNat.testBit

def byteOfBits (bits : List Bool) : UInt8 :=
  UInt8.ofNat (bits.foldr (fun bit n => bit.toNat + 2 * n) 0)

/-- Packs flags into a number of bytes. -/
def packFlags : Nat → List Bool → List UInt8
  | 0, _ => []
  | n + 1, flags => byteOfBits (flags.take 8) :: packFlags n (flags.drop 8)

def unpackFlags (bytes : List UInt8) : List Bool := bytes.flatMap bitsOfByte

@[simp] theorem length_bitsOfByte (b : UInt8) : (bitsOfByte b).length = 8 := rfl

@[simp] theorem length_packFlags (n : Nat) (flags : List Bool) : (packFlags n flags).length = n := by
  induction n generalizing flags with
  | zero => rfl
  | succ n ih => simp [packFlags, ih]

@[simp] theorem length_unpackFlags (bytes : List UInt8) :
    (unpackFlags bytes).length = 8 * bytes.length := by
  induction bytes with
  | nil => rfl
  | cons b bytes ih =>
    simp only [unpackFlags] at ih
    simp only [unpackFlags, List.flatMap_cons, List.length_append, length_bitsOfByte, ih,
      List.length_cons]
    omega

@[simp] theorem unpackFlags_cons (b : UInt8) (bytes : List UInt8) :
    unpackFlags (b :: bytes) = bitsOfByte b ++ unpackFlags bytes := by
  simp [unpackFlags]

theorem bitsOfByte_byteOfBits {bits : List Bool} (h : bits.length = 8) :
    bitsOfByte (byteOfBits bits) = bits := by
  match bits, h with
  | [b0, b1, b2, b3, b4, b5, b6, b7], _ =>
    revert b0 b1 b2 b3 b4 b5 b6 b7
    decide

theorem unpackFlags_packFlags {n : Nat} {flags : List Bool} (h : flags.length = 8 * n) :
    unpackFlags (packFlags n flags) = flags := by
  induction n generalizing flags with
  | zero =>
    rw [List.length_eq_zero_iff.mp h]
    rfl
  | succ n ih =>
    have first : (flags.take 8).length = 8 := by simp only [List.length_take]; omega
    have others : (flags.drop 8).length = 8 * n := by simp only [List.length_drop]; omega
    rw [packFlags, unpackFlags_cons, bitsOfByte_byteOfBits first, ih others, List.take_append_drop]

end RowStore.Layout
