import Mathlib.Algebra.BigOperators.Group.List.Basic
import Mathlib.Algebra.Ring.Int.Defs
import RowStore.Query.Aggregation

/-!
# What a tally says of its group

A tally that took in the numbers of a group one after another knows their number, their sum, and the aggregate of all of
them, in words of 64 bits.
-/

namespace RowStore

/-- The aggregate of the numbers of a group, as a word of 64 bits. -/
def Aggregate.of (aggregate : Aggregate) (numbers : List Int) : Int64 :=
  match aggregate with
  | .count => .ofNat numbers.length
  | .sum => .ofInt numbers.sum
  | .avg => .ofInt numbers.sum / .ofNat numbers.length
  | .min => .ofInt (numbers.min?.getD 0)
  | .max => .ofInt (numbers.max?.getD 0)

theorem Aggregate.of_perm (aggregate : Aggregate) {numbers numbers' : List Int} (perm : numbers.Perm numbers') :
    aggregate.of numbers = aggregate.of numbers' := by
  have least : numbers.min? = numbers'.min? := Option.ext fun n => by
    simp only [List.min?_eq_some_iff, perm.mem_iff]
  have greatest : numbers.max? = numbers'.max? := Option.ext fun n => by
    simp only [List.max?_eq_some_iff, perm.mem_iff]
  cases aggregate <;> simp only [of, perm.length_eq, perm.sum_eq, least, greatest]

/-- A number that a 32-bit word can hold. -/
def IsWord (n : Int) : Prop := -0x80000000 ≤ n ∧ n < 0x80000000

instance (n : Int) : Decidable (IsWord n) := inferInstanceAs (Decidable (_ ∧ _))

theorem ofInt_lt_ofInt {n m : Int} (n_word : IsWord n) (m_word : IsWord m) : Int64.ofInt n < Int64.ofInt m ↔ n < m := by
  obtain ⟨n_ge, n_lt⟩ := n_word
  obtain ⟨m_ge, m_lt⟩ := m_word
  rw [Int64.lt_iff_toInt_lt, Int64.toInt_ofInt_of_le (by omega) (by omega),
    Int64.toInt_ofInt_of_le (by omega) (by omega)]

namespace Tally

def of (aggregate : Aggregate) (numbers : List Int) : Tally :=
  ⟨aggregate.of numbers, .ofInt numbers.sum, .ofNat numbers.length⟩

theorem add_first (aggregate : Aggregate) (n : Int) : empty.add aggregate true (.ofInt n) = of aggregate [n] := by
  cases aggregate <;> simp [add, empty, of, Aggregate.of]

theorem add_next (aggregate : Aggregate) {numbers : List Int} (some : numbers ≠ []) (words : ∀ n ∈ numbers, IsWord n)
    {n : Int} (word : IsWord n) :
    (of aggregate numbers).add aggregate false (.ofInt n) = of aggregate (numbers ++ [n]) := by
  have sum_eq : Int64.ofInt (numbers ++ [n]).sum = Int64.ofInt numbers.sum + Int64.ofInt n := by
    rw [List.sum_append, List.sum_singleton, Int64.ofInt_add]
  have count_eq : Int64.ofNat (numbers ++ [n]).length = Int64.ofNat numbers.length + 1 := by
    rw [List.length_append, List.length_singleton, Int64.ofNat_add]
    rfl
  have least : (numbers ++ [n]).min?.getD 0 = if n < numbers.min?.getD 0 then n else numbers.min?.getD 0 := by
    obtain ⟨first, rest, rfl⟩ := List.exists_cons_of_ne_nil some
    rw [List.cons_append, List.min?_cons', List.min?_cons', Option.getD_some, Option.getD_some, List.foldl_append,
      List.foldl_cons, List.foldl_nil]
    split <;> omega
  have greatest : (numbers ++ [n]).max?.getD 0 = if numbers.max?.getD 0 < n then n else numbers.max?.getD 0 := by
    obtain ⟨first, rest, rfl⟩ := List.exists_cons_of_ne_nil some
    rw [List.cons_append, List.max?_cons', List.max?_cons', Option.getD_some, Option.getD_some, List.foldl_append,
      List.foldl_cons, List.foldl_nil]
    split <;> omega
  have below : Int64.ofInt n < Int64.ofInt (numbers.min?.getD 0) ↔ n < numbers.min?.getD 0 := by
    obtain ⟨first, rest, rfl⟩ := List.exists_cons_of_ne_nil some
    exact ofInt_lt_ofInt word (words _ (List.min?_mem List.min?_cons'))
  have above : Int64.ofInt (numbers.max?.getD 0) < Int64.ofInt n ↔ numbers.max?.getD 0 < n := by
    obtain ⟨first, rest, rfl⟩ := List.exists_cons_of_ne_nil some
    exact ofInt_lt_ofInt (words _ (List.max?_mem List.max?_cons')) word
  unfold add of
  cases aggregate <;>
    simp only [Aggregate.of, sum_eq, count_eq, Bool.false_eq_true, ite_false, least, greatest, below, above,
      apply_ite Int64.ofInt]

end Tally

end RowStore
