import Mathlib.Algebra.Order.BigOperators.Group.List
import RowStore.Proofs.Query.Batches
import RowStore.Proofs.Query.Pulling

/-!
# When an aggregate fails

An aggregate fails where the rows below it fail to come, or where it adds up numbers whose sum is wider than an integer
column. There is no other way: a count is small, the least and the greatest number are numbers of the column, and the
average lies between them.
-/

namespace RowStore

/-! ## Averages -/

section Quotients

variable {n least greatest sum : Int}

theorem le_tdiv (pos : 0 < n) (le : least * n ≤ sum) : least ≤ sum.tdiv n := by
  rcases Int.le_total 0 sum with nonneg | nonpos
  · rw [Int.tdiv_eq_ediv_of_nonneg nonneg]
    exact (Int.le_ediv_iff_mul_le pos).mpr le
  · have negated : sum.tdiv n = -((-sum) / n) := by
      rw [← Int.tdiv_eq_ediv_of_nonneg (Int.neg_nonneg_of_nonpos nonpos), Int.neg_tdiv, Int.neg_neg]
    have above : (-sum) / n ≤ -least := Int.ediv_le_of_le_mul pos (by rw [Int.neg_mul]; omega)
    omega

theorem tdiv_le (pos : 0 < n) (le : sum ≤ greatest * n) : sum.tdiv n ≤ greatest := by
  have below : -greatest ≤ (-sum).tdiv n := le_tdiv pos (by rw [Int.neg_mul]; omega)
  rw [Int.neg_tdiv] at below
  omega

end Quotients

namespace Aggregate

variable {numbers : List Int}

theorem exact_min_spec (some : numbers ≠ []) :
    Aggregate.min.exact numbers ∈ numbers ∧ ∀ n ∈ numbers, Aggregate.min.exact numbers ≤ n := by
  obtain ⟨first, rest, rfl⟩ := List.exists_cons_of_ne_nil some
  exact List.min?_eq_some_iff.mp List.min?_cons'

theorem exact_max_spec (some : numbers ≠ []) :
    Aggregate.max.exact numbers ∈ numbers ∧ ∀ n ∈ numbers, n ≤ Aggregate.max.exact numbers := by
  obtain ⟨first, rest, rfl⟩ := List.exists_cons_of_ne_nil some
  exact List.max?_eq_some_iff.mp List.max?_cons'

theorem exact_avg_between (some : numbers ≠ []) :
    Aggregate.min.exact numbers ≤ Aggregate.avg.exact numbers ∧
      Aggregate.avg.exact numbers ≤ Aggregate.max.exact numbers := by
  have pos : (0 : Int) < numbers.length := by
    have := List.length_pos_iff.mpr some
    omega
  constructor
  · have sum_ge := List.card_nsmul_le_sum numbers _ (exact_min_spec some).2
    rw [nsmul_eq_mul, mul_comm] at sum_ge
    exact le_tdiv pos sum_ge
  · have sum_le := List.sum_le_card_nsmul numbers _ (exact_max_spec some).2
    rw [nsmul_eq_mul, mul_comm] at sum_le
    exact tdiv_le pos sum_le

theorem isWord_exact {aggregate : Aggregate} (other : aggregate ≠ .sum) (words : ∀ n ∈ numbers, IsWord n)
    (some : numbers ≠ []) (few : numbers.length < 2 ^ 31) : IsWord (aggregate.exact numbers) := by
  have least := words _ (exact_min_spec some).1
  have greatest := words _ (exact_max_spec some).1
  cases aggregate with
  | count =>
    change IsWord (numbers.length : Int)
    exact ⟨by omega, by omega⟩
  | sum => exact absurd rfl other
  | avg =>
    obtain ⟨above, below⟩ := exact_avg_between some
    exact ⟨Int.le_trans least.1 above, Int.lt_of_le_of_lt below greatest.2⟩
  | min => exact least
  | max => exact greatest

end Aggregate

/-! ## Results out of range -/

namespace Aggregation

variable {aggregation : Aggregation} {input : Schema} {below : List Row} {groups : Assoc String Tally} {row : Row}

theorem of_plan {column : Nat} {group : Option Nat} {aggregate : Aggregate}
    (h : plan input column group aggregate = .ok aggregation) :
    aggregation.column = column ∧ aggregation.group = group ∧ aggregation.aggregate = aggregate := by
  unfold plan at h
  obtain ⟨target, -, h⟩ := of_bind_eq_ok h
  by_cases refused : target.type = .string ∧ aggregate ≠ .count
  · simp only [if_pos refused] at h
    cases group with
    | none => cases h
    | some index =>
      obtain ⟨groupColumn, -, h⟩ := of_bind_eq_ok h
      cases h
  · simp only [if_neg refused] at h
    cases group with
    | none =>
      cases h
      exact ⟨rfl, rfl, rfl⟩
    | some index =>
      obtain ⟨groupColumn, -, h⟩ := of_bind_eq_ok h
      cases h
      exact ⟨rfl, rfl, rfl⟩

theorem toInt_resultOf (aggregation : Aggregation) (few : below.length < rowLimit) (mem : row ∈ below) :
    (aggregation.resultOf below (aggregation.groupOf row)).toInt =
      aggregation.aggregate.exact (aggregation.numbers below (aggregation.groupOf row)) :=
  (exact_of few mem).value_eq

/-- The exact aggregate of some group is wider than an integer column. -/
def Overflows (aggregation : Aggregation) (below : List Row) (row : Row) : Prop :=
  ¬IsWord (aggregation.aggregate.exact (aggregation.numbers below (aggregation.groupOf row)))

theorem isWord_exact {other : Aggregate} (differs : other ≠ .sum) (few : below.length < 2 ^ 31) (mem : row ∈ below) :
    IsWord (other.exact (aggregation.numbers below (aggregation.groupOf row))) := by
  have few_numbers := Nat.lt_of_le_of_lt (aggregation.length_numbers_le below (aggregation.groupOf row)) few
  exact Aggregate.isWord_exact differs (aggregation.words_numbers below _) (numbers_ne_nil mem) few_numbers

theorem overflows_iff (few : below.length < 2 ^ 31) (mem : row ∈ below) : aggregation.Overflows below row ↔
    aggregation.aggregate = .sum ∧ ¬IsWord (aggregation.numbers below (aggregation.groupOf row)).sum := by
  unfold Overflows
  by_cases summed : aggregation.aggregate = .sum
  · rw [summed]
    exact ⟨fun wide => ⟨rfl, wide⟩, And.right⟩
  · exact ⟨fun wide => absurd (isWord_exact summed few mem) wide, fun wide => absurd wide.1 summed⟩

theorem Suits.of_results_eq_error (h : aggregation.Suits input) (typed : ∀ row ∈ below, row.Typed input)
    (tallied : aggregation.Tallied groups below) (few : below.length < rowLimit) {e : StoreError}
    (failed : (aggregation.withGroups groups).results aggregation.schema = .error e) :
    ∃ row ∈ below, aggregation.Overflows below row ∧ ∃ v : Int64, e = .aggregateOverflow v ∧
      v.toInt = aggregation.aggregate.exact (aggregation.numbers below (aggregation.groupOf row)) := by
  have takes : ∀ row ∈ below, aggregation.Takes row := fun row mem => h.takes (typed row mem)
  rw [Aggregator.results_eq] at failed
  obtain ⟨entry, entry_mem, row_eq⟩ := of_mapM_eq_error failed
  obtain ⟨row, mem, key_eq, tally_eq⟩ := tallied.of_entry takes entry_mem
  have exact_eq := aggregation.toInt_resultOf few mem
  rw [key_eq, tally_eq, h.resultRow_eq (typed row mem)] at row_eq
  split at row_eq
  · cases row_eq
  · next wide =>
    cases row_eq
    refine ⟨row, mem, ?_, _, rfl, exact_eq⟩
    unfold Overflows
    rw [← exact_eq]
    exact wide

/-- A row for each group of some rows: its grouping value, if rows are grouped, and the exact aggregate of its
numbers. -/
def exactRows (aggregation : Aggregation) (below : List Row) : List Row :=
  (below.map aggregation.groupOf).dedup.map fun group =>
    .ofGroup aggregation.schema group (.ofInt (aggregation.aggregate.exact (aggregation.numbers below group)))

theorem Suits.results_exact (h : aggregation.Suits input) (typed : ∀ row ∈ below, row.Typed input)
    (tallied : aggregation.Tallied groups below) (few : below.length < rowLimit)
    (fits : ∀ row ∈ below, ¬aggregation.Overflows below row) :
    ∃ results, (aggregation.withGroups groups).results aggregation.schema = .ok results ∧
      results.Perm (aggregation.exactRows below) := by
  rcases h.results_cases typed tallied with ⟨results, results_eq, -, perm⟩ | ⟨-, wide⟩
  · have same :
        (below.map aggregation.groupOf).dedup.map (aggregation.summary below) = aggregation.exactRows below := by
      refine List.map_congr_left fun group group_mem => ?_
      obtain ⟨row, mem, rfl⟩ := List.mem_map.mp (List.mem_dedup.mp group_mem)
      rw [← aggregation.toInt_resultOf few mem, Int32.ofInt_int64ToInt]
      rfl
    exact ⟨results, results_eq, same ▸ perm⟩
  · refine absurd (fun row mem => ?_) wide
    have word := Classical.not_not.mp (fits row mem)
    rwa [← aggregation.toInt_resultOf few mem] at word

end Aggregation

/-! ## Opening an aggregate -/

namespace Operator

variable {child : Operator} {aggregation : Aggregation} {store : Store} {rows : List Row}
  {ending : Except Failure Unit}

/-- What becomes of opening an aggregate: it fails as the rows below it do, or it gives its rows, or some group's
aggregate is too wide. -/
theorem openAll_aggregate_cases (suits : aggregation.Suits child.schema)
    (yields : (child.openAll store).Yields rows ending) (typed : ∀ row ∈ rows, row.Typed child.schema)
    (few : rows.length < rowLimit) (out : RowBuffer) :
    let opened := (aggregate aggregation child out).openAll store
    (∃ failure, ending = .error failure ∧ opened.outcome = .error failure) ∨
      (ending = .ok () ∧ (∀ row ∈ rows, ¬aggregation.Overflows rows row) ∧ opened.outcome = .ok () ∧
        ∃ results, opened.operator = .aggregate aggregation (child.openAll store).operator
          (RowBuffer.ofRows aggregation.schema results).opened ∧ results.Perm (aggregation.exactRows rows)) ∨
      (ending = .ok () ∧ ∃ row ∈ rows, aggregation.Overflows rows row ∧ ∃ v : Int64,
        opened.outcome = .error (.refused (.aggregateOverflow v)) ∧
          v.toInt = aggregation.aggregate.exact (aggregation.numbers rows (aggregation.groupOf row))) := by
  intro opened
  obtain ⟨groups, merged, tallied⟩ :=
    Aggregation.mergeAll_ok (fun row mem => suits.takes (typed row mem)) aggregation.tallied_empty
  rw [List.nil_append] at tallied
  have fed := yields.feed_check (fun aggregator row => aggregator.merge row) (aggregation.withGroups .empty)
  rw [merged] at fed
  have opened_eq : opened = _ := openAll_aggregate_eq suits.start_eq child out store
  cases ending with
  | error failure =>
    refine .inl ⟨failure, rfl, ?_⟩
    rw [opened_eq, Run.check, fed]
    rfl
  | ok _ =>
    refine .inr ?_
    rw [Run.check_ok fed] at opened_eq
    by_cases fits : ∀ row ∈ rows, ¬aggregation.Overflows rows row
    · obtain ⟨results, results_eq, perm⟩ := suits.results_exact typed tallied few fits
      rw [results_eq, Run.collect_ok rfl, Run.operator_feed] at opened_eq
      refine .inl ⟨rfl, fits, ?_, results, ?_, perm⟩
      · rw [opened_eq]
      · rw [opened_eq]
    · cases results_eq : (aggregation.withGroups groups).results aggregation.schema with
      | ok results =>
        -- Results that are given are all in range.
        obtain ⟨words, -⟩ := tallied.of_results_eq_ok (fun row mem => suits.takes (typed row mem)) results_eq
        refine absurd (fun row mem overflows => overflows ?_) fits
        rw [← aggregation.toInt_resultOf few mem]
        exact words row mem
      | error e =>
        obtain ⟨row, mem, overflows, v, rfl, exact_eq⟩ := suits.of_results_eq_error typed tallied few results_eq
        rw [results_eq, Run.collect_error rfl] at opened_eq
        exact .inr ⟨rfl, row, mem, overflows, v, by rw [opened_eq], exact_eq⟩

/-- An aggregate that was planned fails to open just where the rows below it fail to come, or it adds up the numbers of
a group to more than an integer column holds, and then it tells such a sum. No other aggregate is ever too wide, and an
average lies between the least and the greatest number of its group. -/
theorem openAll_aggregate_fails_iff {column : Nat} {group : Option Nat} {aggregate : Aggregate}
    (planned : Aggregation.plan child.schema column group aggregate = .ok aggregation) (out : RowBuffer)
    (store : Store) :
    (aggregation.column = column ∧ aggregation.group = group ∧ aggregation.aggregate = aggregate) ∧
    (∃ rows ending, (child.openAll store).Yields rows ending ∧ ∀ rows' ending',
      (child.openAll store).Yields rows' ending' → rows' = rows ∧ ending' = ending) ∧
    ∀ rows ending, (child.openAll store).Yields rows ending → (∀ row ∈ rows, row.Typed child.schema) →
      rows.length < 2 ^ 31 →
      let opened := (Operator.aggregate aggregation child out).openAll store
      let numbers := fun row => aggregation.numbers rows (aggregation.groupOf row)
      ((∃ failure, opened.outcome = .error failure) ↔
        (∃ failure, ending = .error failure) ∨ aggregate = .sum ∧ ∃ row ∈ rows, ¬IsWord (numbers row).sum) ∧
      (∀ failure, opened.outcome = .error failure → ending = .error failure ∨ ending = .ok () ∧ aggregate = .sum ∧
        ∃ row ∈ rows, ¬IsWord (numbers row).sum ∧
          ∃ v : Int64, failure = .refused (.aggregateOverflow v) ∧ v.toInt = (numbers row).sum) ∧
      (opened.outcome = .ok () → ∃ results, opened.operator = .aggregate aggregation (child.openAll store).operator
        (RowBuffer.ofRows aggregation.schema results).opened ∧ results.Perm (aggregation.exactRows rows)) ∧
      ∀ row ∈ rows, (∀ other : Aggregate, other ≠ .sum → IsWord (other.exact (numbers row))) ∧
        Aggregate.min.exact (numbers row) ≤ Aggregate.avg.exact (numbers row) ∧
        Aggregate.avg.exact (numbers row) ≤ Aggregate.max.exact (numbers row) := by
  obtain ⟨column_eq, group_eq, rfl⟩ := Aggregation.of_plan planned
  obtain ⟨rows, ending, yields⟩ := (child.openAll store).exists_yields
  refine ⟨⟨column_eq, group_eq, rfl⟩,
    ⟨rows, ending, yields, fun rows' ending' yields' => yields'.unique yields⟩, ?_⟩
  intro rows ending yields typed few opened numbers
  have few' : rows.length < rowLimit := Nat.lt_trans few (by decide)
  have cases := openAll_aggregate_cases (Aggregation.suits_of_plan planned) yields typed few' out
  refine ⟨?_, ?_, ?_, fun row mem => ⟨fun other differs => Aggregation.isWord_exact differs few mem,
    Aggregate.exact_avg_between (Aggregation.numbers_ne_nil mem)⟩⟩
  · rcases cases with ⟨failure, ended, failed⟩ | ⟨ended, fits, succeeded, -⟩ |
      ⟨-, row, mem, wide, v, failed, -⟩
    · exact ⟨fun _ => .inl ⟨failure, ended⟩, fun _ => ⟨failure, failed⟩⟩
    · constructor
      · rintro ⟨failure, failed⟩
        cases succeeded.symm.trans failed
      · rintro (⟨failure, ended'⟩ | ⟨summed, row, mem, wide⟩)
        · cases ended.symm.trans ended'
        · exact absurd ((Aggregation.overflows_iff few mem).mpr ⟨summed, wide⟩) (fits row mem)
    · obtain ⟨summed, wide⟩ := (Aggregation.overflows_iff few mem).mp wide
      exact ⟨fun _ => .inr ⟨summed, row, mem, wide⟩, fun _ => ⟨_, failed⟩⟩
  · intro failure failed
    rcases cases with ⟨failure', ended, failed'⟩ | ⟨-, -, succeeded, -⟩ | ⟨ended, row, mem, wide, v, failed', exact_eq⟩
    · cases failed.symm.trans failed'
      exact .inl ended
    · cases succeeded.symm.trans failed
    · cases failed.symm.trans failed'
      obtain ⟨summed, wide⟩ := (Aggregation.overflows_iff few mem).mp wide
      rw [summed] at exact_eq
      exact .inr ⟨ended, summed, row, mem, wide, v, rfl, exact_eq⟩
  · intro succeeded
    rcases cases with ⟨failure, -, failed⟩ | ⟨-, -, -, results, operator_eq, perm⟩ | ⟨-, -, -, -, v, failed, -⟩
    · cases succeeded.symm.trans failed
    · exact ⟨results, operator_eq, perm⟩
    · cases succeeded.symm.trans failed

/-! A sum of two numbers that is one too large. -/

def amountSchema : Schema := Schema.empty.addNamed "amount" .int

def amounts : List Row := [⟨amountSchema, [.int 2147483647], none⟩, ⟨amountSchema, [.int 1], none⟩]

def amountSum : Aggregation := ⟨0, .int, none, none, .sum, ⟨[⟨.int, some "sum(amount)"⟩]⟩⟩

def sumOfAmounts : Run Unit :=
  (aggregate amountSum (ofRows amountSchema amounts) (.ofRows amountSum.schema [])).openAll default

theorem openAll_aggregate_fails_iff_sum_of_amounts :
    Aggregation.plan amountSchema 0 none .sum = .ok amountSum ∧
      ((ofRows amountSchema amounts).openAll default).Yields amounts (.ok ()) ∧
      (∀ row ∈ amounts, row.Typed amountSchema) ∧ amounts.length < 2 ^ 31 ∧
      ∃ v : Int64, sumOfAmounts.outcome = .error (.refused (.aggregateOverflow v)) ∧ v.toInt = 2147483648 := by
  have planned : Aggregation.plan amountSchema 0 none .sum = .ok amountSum := by decide
  have yields : ((ofRows amountSchema amounts).openAll default).Yields amounts (.ok ()) := ⟨rfl, rfl, rfl⟩
  have typed : ∀ row ∈ amounts, row.Typed amountSchema := by
    intro row mem
    simp only [amounts, List.mem_cons, List.not_mem_nil, or_false] at mem
    rcases mem with rfl | rfl <;> exact ⟨rfl, rfl⟩
  have few : amounts.length < 2 ^ 31 := by decide
  refine ⟨planned, yields, typed, few, ?_⟩
  obtain ⟨-, -, opens⟩ := @openAll_aggregate_fails_iff (ofRows amountSchema amounts) amountSum _ _ _ planned
    (.ofRows amountSum.schema []) default
  obtain ⟨fails, failures, -, -⟩ := opens amounts (.ok ()) yields typed few
  have sums : ∀ row ∈ amounts, (amountSum.numbers amounts (amountSum.groupOf row)).sum = 2147483648 := by decide
  obtain ⟨failure, failed⟩ := fails.mpr (.inr ⟨rfl, _, List.mem_cons_self, by rw [sums _ List.mem_cons_self]; decide⟩)
  rcases failures failure failed with ended | ⟨-, -, row, mem, -, v, rfl, sum_eq⟩
  · cases ended
  · exact ⟨v, failed, sum_eq.trans (sums row mem)⟩

end Operator

end RowStore
