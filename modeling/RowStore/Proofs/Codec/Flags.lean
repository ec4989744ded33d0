import RowStore.Proofs.Codec.Frame

/-!
# The flags of a page in its bytes

The flag of a slot is one bit of one byte. Which bit it is depends on the number of the slot alone, so that changing a
flag changes no other.
-/

namespace RowStore

namespace Layout

/-- The bit with a number in some bytes: eight bits to a byte, the lowest first. There are no bits set past the end. -/
def flagAt (bytes : List UInt8) (index : Nat) : Bool := (bytes.getD (index / 8) 0).toNat.testBit (index % 8)

theorem getElem?_bitsOfByte (b : UInt8) {index : Nat} (lt : index < 8) :
    (bitsOfByte b)[index]? = some (b.toNat.testBit index) := by
  rw [bitsOfByte, List.getElem?_map, List.getElem?_range lt, Option.map_some]

theorem getElem?_unpackFlags {bytes : List UInt8} {index : Nat} (lt : index < 8 * bytes.length) :
    (unpackFlags bytes)[index]? = some (flagAt bytes index) := by
  induction bytes generalizing index with
  | nil => cases lt
  | cons b bytes ih =>
    rw [List.length_cons] at lt
    rw [unpackFlags_cons]
    by_cases first : index < 8
    · rw [List.getElem?_append_left first, getElem?_bitsOfByte b first, flagAt, Nat.div_eq_of_lt first,
        Nat.mod_eq_of_lt first]
      rfl
    · have byte_eq : index / 8 = (index - 8) / 8 + 1 := by omega
      have bit_eq : index % 8 = (index - 8) % 8 := by omega
      rw [List.getElem?_append_right (Nat.le_of_not_lt first), length_bitsOfByte, ih (by omega), flagAt, flagAt,
        byte_eq, bit_eq, List.getD_cons_succ]

theorem getElem?_packFlags {bytes index : Nat} {flags : List Bool} (length_eq : flags.length = 8 * bytes)
    (lt : index < flags.length) : flags[index]? = some (flagAt (packFlags bytes flags) index) := by
  have lt' : index < 8 * (packFlags bytes flags).length := by rwa [length_packFlags, ← length_eq]
  rw [← getElem?_unpackFlags lt', unpackFlags_packFlags length_eq]

theorem flagAt_past {bytes : List UInt8} {index : Nat} (le : 8 * bytes.length ≤ index) :
    flagAt bytes index = false := by
  have past : bytes.length ≤ index / 8 := by omega
  rw [flagAt, List.getD_eq_getElem?_getD, List.getElem?_eq_none past]
  exact Nat.zero_testBit _

theorem flagAt_packFlags_congr {bytes index : Nat} {flags flags' : List Bool} (length_eq : flags.length = 8 * bytes)
    (length_eq' : flags'.length = 8 * bytes) (same : flags[index]? = flags'[index]?) :
    flagAt (packFlags bytes flags) index = flagAt (packFlags bytes flags') index := by
  by_cases lt : index < 8 * bytes
  · rw [getElem?_packFlags length_eq (length_eq ▸ lt), getElem?_packFlags length_eq' (length_eq' ▸ lt)] at same
    exact Option.some.inj same
  · rw [flagAt_past, flagAt_past] <;> rw [length_packFlags] <;> omega

end Layout

namespace Page

variable {page : Page}

def header (page : Page) : List UInt8 := Layout.packFlags page.headerSize (page.slots.map Slot.used ++ page.spare)

theorem Framed.length_flags (h : page.Framed) :
    (page.slots.map Slot.used ++ page.spare).length = 8 * page.headerSize := by
  rw [List.length_append, List.length_map, ← h.flags_eq, slotCount]

theorem isUsed_eq_getD (page : Page) (index : Nat) :
    page.isUsed index = (page.slots[index]?.map Slot.used).getD false := by
  unfold isUsed
  cases page.slots[index]? <;> rfl

theorem Framed.flagAt_header (h : page.Framed) {index : Nat} (lt : index < page.slotCount) :
    Layout.flagAt page.header index = page.isUsed index := by
  have lt' : index < (page.slots.map Slot.used).length := by rwa [List.length_map]
  have bit := Layout.getElem?_packFlags h.length_flags (Nat.lt_of_lt_of_le lt' (by simp))
  rw [List.getElem?_append_left lt', List.getElem?_map] at bit
  rw [isUsed_eq_getD, bit]
  rfl

end Page

end RowStore
