/-!
# Checksums

The 32-bit cyclic redundancy check with the reflected polynomial `0xEDB88320`, one bit at a time.
-/

namespace RowStore.Checksum

/-- Moves a remainder one bit down, and subtracts the polynomial if a one fell out. -/
def shift (c : UInt32) : UInt32 :=
  if c &&& 1 = 1 then (c >>> 1) ^^^ 0xEDB88320 else c >>> 1

/-- Takes one byte into a remainder. -/
def addByte (c : UInt32) (b : UInt8) : UInt32 :=
  Nat.repeat shift 8 (c ^^^ b.toUInt32)

/-- The checksum of a list of bytes. -/
def crc32 (bytes : List UInt8) : UInt32 :=
  bytes.foldl addByte 0xFFFFFFFF ^^^ 0xFFFFFFFF

example : crc32 [] = 0 := rfl

/-- The digits from 1 to 9, the usual test of this checksum. -/
example : crc32 [0x31, 0x32, 0x33, 0x34, 0x35, 0x36, 0x37, 0x38, 0x39] = 0xCBF43926 := by
  decide +kernel

end RowStore.Checksum
