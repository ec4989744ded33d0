import RowStore.Proofs.Codec.Row

/-!
# Reading values back from their text

A value that is written as text is read back from it as it was: an integer from its decimal digits, and a text of which
nothing has to be cut from itself.
-/

namespace RowStore

theorem digitsValue_toDigits (n : Nat) : digitsValue (Nat.toDigits 10 n) = n := by
  have step_eq : (fun (n : Nat) (c : Char) => n * 10 + (c.toNat - '0'.toNat)) =
      fun n c => 10 * n + (c.toNat - '0'.toNat) := by
    funext n c
    rw [Nat.mul_comm]
  rw [digitsValue, step_eq, ← Nat.ofDigitChars_eq_foldl, Nat.ofDigitChars_ten_toDigits]

theorem digits?_toDigits (n : Nat) : digits? (Nat.toDigits 10 n) = some n := by
  have digits : (Nat.toDigits 10 n).all Char.isDigit = true :=
    List.all_eq_true.mpr fun c mem => Nat.isDigit_of_mem_toDigits (by decide) (by decide) mem
  have some : (Nat.toDigits 10 n).isEmpty = false := List.isEmpty_eq_false_iff.mpr Nat.toDigits_ne_nil
  rw [digits?, digits, some, digitsValue_toDigits]
  rfl

theorem toDigits_sign (n : Nat) (rest : List Char) :
    Nat.toDigits 10 n ≠ '-' :: rest ∧ Nat.toDigits 10 n ≠ '+' :: rest := by
  have digit : ∀ c ∈ Nat.toDigits 10 n, c.isDigit = true := fun c mem =>
    Nat.isDigit_of_mem_toDigits (by decide) (by decide) mem
  constructor
  · intro same
    exact absurd (digit '-' (same ▸ List.mem_cons_self)) (by decide)
  · intro same
    exact absurd (digit '+' (same ▸ List.mem_cons_self)) (by decide)

theorem int?_text (n : Int32) : int? (toString n.toInt) = some n := by
  have lower := n.le_toInt
  have upper := n.toInt_lt
  have back : (if -0x80000000 ≤ n.toInt ∧ n.toInt < 0x80000000 then some (Int32.ofInt n.toInt) else none) = some n := by
    rw [if_pos ⟨by omega, by omega⟩, Int32.ofInt_toInt]
  unfold int?
  rw [Int.toString_eq_repr, Int.repr_eq_if]
  by_cases nonneg : 0 ≤ n.toInt
  · have parsed : (digits? (Nat.toDigits 10 n.toInt.toNat)).map Int.ofNat = some n.toInt := by
      rw [digits?_toDigits, Option.map_some, Int.ofNat_eq_natCast, Int.toNat_of_nonneg nonneg]
    rw [if_pos nonneg, Nat.toList_repr]
    split
    · next same => exact absurd same (toDigits_sign ..).1
    · next same => exact absurd same (toDigits_sign ..).2
    · rw [parsed]
      exact back
  · have magnitude : -((-n.toInt).toNat : Int) = n.toInt := by
      rw [Int.toNat_of_nonneg (by omega), Int.neg_neg]
    have chars_eq : "-".toList ++ Nat.toDigits 10 (-n.toInt).toNat = '-' :: Nat.toDigits 10 (-n.toInt).toNat := rfl
    rw [if_neg nonneg, String.toList_append, Nat.toList_repr, chars_eq]
    simp only [digits?_toDigits, Option.pure_def, Option.bind_eq_bind, Option.bind_some, Option.map_some, magnitude]
    exact back

theorem ColumnType.parse_text {v : Value} (fits : v.fit = v) : v.type.parse v.text = .ok v := by
  cases v with
  | int n => simp only [Value.type, Value.text, parse, int?_text]
  | string s => simp only [Value.type, Value.text, parse, fits]

end RowStore
