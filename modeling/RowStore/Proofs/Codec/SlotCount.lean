import Mathlib.Algebra.Order.Floor.Div
import Mathlib.GroupTheory.GroupAction.Ring
import Mathlib.Order.Bounds.Basic
import RowStore.Proofs.Codec.Frame
import RowStore.Proofs.Pool.SetUp

/-!
# How many slots a page has

A page is divided once to find its number of slots, with one bit charged for each flag, though the flags take whole
bytes. No slot is lost by that: the number found is the largest one whose flags and slots have room. So a file can be
opened just when a page has room for a row and the byte of its flag.
-/

namespace RowStore

namespace Layout

theorem headerBytes_eq_ceilDiv (slots : Nat) : headerBytes slots = slots ⌈/⌉ 8 := by
  rw [Nat.ceilDiv_eq_add_pred_div, headerBytes]
  omega

theorem room_iff (size width slots : Nat) :
    slots ⌈/⌉ 8 + slots * width ≤ size ↔ slots ≤ size * 8 / (width * 8 + 1) := by
  -- The slots take whole bytes, so flags rounded up to whole bytes have room just when their bits do.
  rw [Nat.le_div_iff_mul_le (Nat.zero_lt_succ _), Nat.mul_succ, ← Nat.mul_assoc, ← headerBytes_eq_ceilDiv, headerBytes]
  omega

theorem isGreatest_slotCount (size width : Nat) :
    IsGreatest {n | n ≤ maxSlots ∧ n ⌈/⌉ 8 + n * width ≤ size} (slotCount size width) := by
  refine ⟨⟨slotCount_le_maxSlots size width, (room_iff size width _).mpr (Nat.min_le_left _ _)⟩, ?_⟩
  rintro n ⟨numbered, room⟩
  exact Nat.le_min.mpr ⟨(room_iff size width n).mp room, numbered⟩

theorem slotCount_eq_zero_iff (size width : Nat) : slotCount size width = 0 ↔ size < width + 1 := by
  have first := room_iff size width 1
  rw [← headerBytes_eq_ceilDiv, headerBytes, Nat.one_mul] at first
  unfold slotCount maxSlots
  generalize size * 8 / (width * 8 + 1) = bound at first ⊢
  omega

theorem toNat_slot {size width index : Nat} (lt : index < slotCount size width) : (UInt16.ofNat index).toNat = index :=
  UInt16.toNat_ofNat_of_lt' (Nat.lt_of_lt_of_le lt (slotCount_le_maxSlots size width))

theorem slotsFor_eq_ok {size : Nat} (size_lt : 8 * size < UInt64.size) (schema : Schema) :
    slotsFor size schema = .ok (slotCount size schema.width) := by
  rw [slotsFor, if_pos (by omega)]

end Layout

theorem Disk.locate_error {disk : Disk} {path : String} {e : StoreError} (h : disk.locate path = .error e) :
    e = .fileSystem := by
  unfold locate at h
  dsimp only at h
  split at h
  · cases h
    rfl
  · split at h
    · split at h
      · cases h
        rfl
      · cases h
    · cases h
      rfl

namespace TableFile

variable {schema : Schema} {size : Nat}

theorem checkSizes_eq (schema : Schema) (size_ne : size ≠ 0) (size_lt : 8 * size < UInt64.size) :
    checkSizes schema size =
      if size < schema.width + 1 then .error (.refused (.rowTooWide schema.width size)) else .ok () := by
  rw [checkSizes, if_neg size_ne, Layout.slotsFor_eq_ok size_lt]
  simp only [Layout.slotCount_eq_zero_iff]

theorem openAt_tooWide_iff (size_ne : size ≠ 0) (size_lt : 8 * size < UInt64.size) (path : String)
    (store store' : Store) (rowSize pageSize : Nat) :
    openAt path schema size store = .error (.refused (.rowTooWide rowSize pageSize)) store' ↔
      size < schema.width + 1 ∧ rowSize = schema.width ∧ pageSize = size ∧ store' = store := by
  have sizes := checkSizes_eq schema size_ne size_lt
  by_cases narrow : size < schema.width + 1
  · rw [if_pos narrow] at sizes
    have run : openAt path schema size store = .error (.refused (.rowTooWide schema.width size)) store := by
      unfold openAt
      exact Action.bind_error (Action.attempt_apply_error sizes store)
    rw [run]
    simp only [EStateM.Result.error.injEq, Failure.refused.injEq, StoreError.rowTooWide.injEq, narrow, true_and,
      and_assoc, eq_comm]
  · rw [if_neg narrow] at sizes
    refine ⟨fun failed => ?_, fun wide => absurd wide.1 narrow⟩
    cases place : store.disk.locate path with
    | ok found =>
      rw [openAt_ok store sizes place] at failed
      cases failed
    | error e =>
      have run : openAt path schema size store = .error (.refused e) store := by
        unfold openAt
        rw [Action.bind_ok (Action.attempt_apply_ok sizes store), Action.bind_ok (Action.get_apply store)]
        exact Action.bind_error (Action.check_apply_error place store)
      rw [run, Disk.locate_error place] at failed
      cases failed

end TableFile

/-- The number of slots is the largest one whose flags and slots have room, so that one more never has, below the number
of slots that 16 bits can number. Every page of the size has so many slots, with numbers that fit 16 bits, and the file
is refused just when a row and one byte more are too wide for its pages. -/
theorem Layout.slotsFor_optimal (schema : Schema) {size : Nat} (size_lt : 8 * size < UInt64.size) :
    ∃ slots, slotsFor size schema = .ok slots ∧
      IsGreatest {n | n ≤ 65536 ∧ n ⌈/⌉ 8 + n * schema.width ≤ size} slots ∧
      headerBytes slots + slots * schema.width ≤ size ∧
      (slots < 65536 → size < (slots + 1) ⌈/⌉ 8 + (slots + 1) * schema.width) ∧
      (∀ index < slots, (UInt16.ofNat index).toNat = index) ∧
      (∀ id data page, Bytes.length data = size → Page.decode id schema data = .ok page → page.slotCount = slots) ∧
      (size ≠ 0 → ∀ path store store' rowSize pageSize,
        TableFile.openAt path schema size store = .error (.refused (.rowTooWide rowSize pageSize)) store' ↔
          size < schema.width + 1 ∧ rowSize = schema.width ∧ pageSize = size ∧ store' = store) := by
  have greatest := isGreatest_slotCount size schema.width
  refine ⟨_, slotsFor_eq_ok size_lt schema, greatest, room_le _ _, ?_, fun _ lt => toNat_slot lt, ?_, ?_⟩
  · intro below
    by_contra room
    exact Nat.not_succ_le_self _ (greatest.2 ⟨below, Nat.le_of_not_lt room⟩)
  · intro id data page length_eq decoded
    obtain ⟨-, schema_eq, size_eq, -, framed, -⟩ := Page.decode_eq_ok decoded
    rw [framed.slotCount_eq, schema_eq, size_eq, length_eq]
  · intro size_ne path store store' rowSize pageSize
    exact TableFile.openAt_tooWide_iff size_ne size_lt path store store' rowSize pageSize

theorem Layout.slotsFor_optimal_two_ints :
    8 * 4096 < UInt64.size ∧ IsGreatest {n | n ≤ 65536 ∧ n ⌈/⌉ 8 + n * 8 ≤ 4096} 504 ∧
      4096 < 505 ⌈/⌉ 8 + 505 * 8 := by
  have size_lt : 8 * 4096 < UInt64.size := by decide
  obtain ⟨slots, slots_eq, greatest, -, more, -⟩ := slotsFor_optimal (.ofTypes [.int, .int]) size_lt
  cases slots_eq
  exact ⟨size_lt, greatest, more (by decide)⟩

end RowStore
