import RowStore.Text.Utf8

/-!
# Reading back a text

The decoder gives back the characters whose bytes it reads, one character after another.
-/

namespace RowStore.Utf8

/-! ## One byte -/

theorem start_one {n : Nat} (h : n < 0x80) : start (UInt8.ofNat n) = ([Char.ofNat n], none) := by
  have toNat_eq : (UInt8.ofNat n).toNat = n := by simp; omega
  rw [start, if_pos (by rw [UInt8.lt_iff_toNat_lt, toNat_eq]; exact h), toNat_eq]

/-! What the first byte announces of a character of two, three and four bytes. The first two leads of two bytes would
begin an overlong form, and the second byte keeps to narrower bounds after some of the others. -/

theorem start_two : ∀ k < 32, 2 ≤ k →
    start (UInt8.ofNat (k + 0xC0)) = ([], some ⟨k, 1, 0x80, 0xBF⟩) := by decide

theorem start_three : ∀ k < 16, start (UInt8.ofNat (k + 0xE0)) =
    ([], some ⟨k, 2, if k = 0 then 0xA0 else 0x80, if k = 13 then 0x9F else 0xBF⟩) := by decide

theorem start_four : ∀ k < 5, start (UInt8.ofNat (k + 0xF0)) =
    ([], some ⟨k, 3, if k = 0 then 0x90 else 0x80, if k = 4 then 0x8F else 0xBF⟩) := by decide

theorem next_within {bits owed k : Nat} {low high : UInt8} (lt : k < 64) (ge_low : low.toNat ≤ k + 0x80)
    (le_high : k + 0x80 ≤ high.toNat) :
    Pending.next ⟨bits, owed, low, high⟩ (UInt8.ofNat (k + 0x80)) =
      if owed ≤ 1 then ([Char.ofNat (bits * 64 + k)], none)
      else ([], some ⟨bits * 64 + k, owed - 1, 0x80, 0xBF⟩) := by
  have toNat_eq : (UInt8.ofNat (k + 0x80)).toNat = k + 0x80 := by simp; omega
  have low_bits : (k + 0x80) % 64 = k := by omega
  simp only [Pending.next, UInt8.le_iff_toNat_le, toNat_eq, low_bits]
  rw [if_pos ⟨ge_low, le_high⟩]

/-! ## One character -/

theorem decodeFrom_cons (pending : Option Pending) (b : UInt8) (rest : List UInt8) :
    decodeFrom pending (b :: rest) = (step pending b).1 ++ decodeFrom (step pending b).2 rest := by
  cases pending <;> rfl

theorem decodeFrom_two {a b : Nat} (ha : a < 32) (ge : 2 ≤ a) (hb : b < 64) (rest : List UInt8) :
    decodeFrom none (UInt8.ofNat (a + 0xC0) :: UInt8.ofNat (b + 0x80) :: rest) =
      Char.ofNat (a * 64 + b) :: decodeFrom none rest := by
  simp only [decodeFrom_cons, step, start_two a ha ge]
  rw [next_within hb (by decide +revert) (by simp; omega)]
  simp

theorem decodeFrom_three {a b c : Nat} (ha : a < 16) (hb : b < 64) (hc : c < 64) (overlong : a = 0 → 32 ≤ b)
    (surrogate : a = 13 → b < 32) (rest : List UInt8) :
    decodeFrom none (UInt8.ofNat (a + 0xE0) :: UInt8.ofNat (b + 0x80) :: UInt8.ofNat (c + 0x80) :: rest) =
      Char.ofNat ((a * 64 + b) * 64 + c) :: decodeFrom none rest := by
  simp only [decodeFrom_cons, step, start_three a ha]
  rw [next_within hb (by split <;> simp; omega) (by split <;> simp <;> omega)]
  simp only [Nat.reduceSub, Nat.reduceLeDiff, ite_false]
  rw [next_within hc (by simp) (by simp; omega)]
  simp

theorem decodeFrom_four {a b c d : Nat} (ha : a < 5) (hb : b < 64) (hc : c < 64) (hd : d < 64)
    (overlong : a = 0 → 16 ≤ b) (last : a = 4 → b < 16) (rest : List UInt8) :
    decodeFrom none (UInt8.ofNat (a + 0xF0) :: UInt8.ofNat (b + 0x80) :: UInt8.ofNat (c + 0x80) ::
        UInt8.ofNat (d + 0x80) :: rest) =
      Char.ofNat (((a * 64 + b) * 64 + c) * 64 + d) :: decodeFrom none rest := by
  simp only [decodeFrom_cons, step, start_four a ha]
  rw [next_within hb (by split <;> simp; omega) (by split <;> simp <;> omega)]
  simp only [Nat.reduceSub, Nat.reduceLeDiff, ite_false]
  rw [next_within hc (by simp) (by simp; omega)]
  simp only [Nat.reduceSub, Nat.reduceLeDiff, ite_false]
  rw [next_within hd (by simp) (by simp; omega)]
  simp

theorem decodeFrom_encodeChar (c : Char) (rest : List UInt8) :
    decodeFrom none (String.utf8EncodeChar c ++ rest) = c :: decodeFrom none rest := by
  have valid : c.val.toNat < 0xD800 ∨ 0xDFFF < c.val.toNat ∧ c.val.toNat < 0x110000 := c.valid
  have back : ∀ n, n = c.val.toNat → Char.ofNat n = c := by
    rintro n rfl
    exact Char.ofNat_toNat c
  simp only [String.utf8EncodeChar]
  split
  · next small =>
    simp only [List.cons_append, List.nil_append, decodeFrom_cons, step, start_one (Nat.lt_succ_of_le small)]
    rw [back _ rfl]
  · split
    · simp only [List.cons_append, List.nil_append]
      rw [decodeFrom_two (by omega) (by omega) (by omega), back _ (by omega)]
    · split
      · simp only [List.cons_append, List.nil_append]
        rw [decodeFrom_three (by omega) (by omega) (by omega) (by omega) (by omega), back _ (by omega)]
      · simp only [List.cons_append, List.nil_append]
        rw [decodeFrom_four (by omega) (by omega) (by omega) (by omega) (by omega) (by omega), back _ (by omega)]

/-! ## Texts -/

theorem decodeFrom_encodeChars (chars : List Char) : decodeFrom none (encodeChars chars) = chars := by
  induction chars with
  | nil => rfl
  | cons c chars ih => rw [encodeChars_cons, decodeFrom_encodeChar, ih]

theorem decodeLossy_encode (text : String) : decodeLossy (encode text) = text := by
  rw [decodeLossy, encode, decodeFrom_encodeChars, String.ofList_toList]

theorem truncate_eq_iff {limit : Nat} {text : String} : truncate limit text = text ↔ byteCount text ≤ limit := by
  constructor
  · intro same
    rw [← same]
    simpa [byteCount, encode, truncate] using length_encodeChars_takeBytes limit text.toList
  · intro fits
    rw [truncate, takeBytes_of_fits fits, String.ofList_toList]

/-! ## Length

A byte that encodes nothing is read as a character of three bytes, so reading can make a text three times as long. -/

/-- The bytes that are still to come for what is pending: at worst those of a replacement. -/
def due : Option Pending → Nat
  | none => 0
  | some _ => 3

theorem length_start (b : UInt8) : (encodeChars (start b).1).length + due (start b).2 ≤ 3 := by
  unfold start
  split
  · next small =>
    have lt : b.toNat < 0x80 := UInt8.lt_iff_toNat_lt.mp small
    have one : (Char.ofNat b.toNat).utf8Size = 1 := by
      revert lt
      generalize b.toNat = n
      decide +revert
    simp [due, one]
  · split
    · simp [due]
    · decide

theorem length_next (p : Pending) (b : UInt8) :
    (encodeChars (p.next b).1).length + due (p.next b).2 ≤ 6 := by
  unfold Pending.next
  split
  · dsimp only
    split
    · have := Char.utf8Size_le_four (Char.ofNat (p.bits * 64 + b.toNat % 64))
      simp [due]
      omega
    · simp [due]
  · have := length_start b
    have three : (String.utf8EncodeChar replacement).length = 3 := rfl
    simp only [encodeChars_cons, List.length_append, three]
    omega

theorem length_decodeFrom (pending : Option Pending) (bytes : List UInt8) :
    (encodeChars (decodeFrom pending bytes)).length ≤ due pending + 3 * bytes.length := by
  induction bytes generalizing pending with
  | nil =>
    cases pending with
    | none => simp [decodeFrom]
    | some p => exact Nat.le_of_eq rfl
  | cons b bytes ih =>
    have rest := ih (step pending b).2
    have here : (encodeChars (step pending b).1).length + due (step pending b).2 ≤ due pending + 3 := by
      cases pending with
      | none => exact Nat.le_trans (length_start b) (by simp [due])
      | some p => exact length_next p b
    rw [decodeFrom_cons, encodeChars_append, List.length_append, List.length_cons]
    omega

theorem byteCount_decodeLossy_le (bytes : List UInt8) : byteCount (decodeLossy bytes) ≤ 3 * bytes.length := by
  rw [byteCount, encode, decodeLossy, String.toList_ofList]
  exact Nat.le_trans (length_decodeFrom none bytes) (by simp [due])

end RowStore.Utf8
