import RowStore.Proofs.Query.Groups

/-!
# Rows taken in one by one

An aggregator takes in rows one by one, and a row that it refuses changes nothing. In the end it knows of each group
what the rows of the group give when they are all at hand: their number, their sum and their aggregate, as exact
integers. So the order of the rows does not matter.
-/

namespace RowStore

/-! ## Exact aggregates -/

/-- The aggregate of the numbers of a group, whatever its size. An average is rounded toward zero. -/
def Aggregate.exact (aggregate : Aggregate) (numbers : List Int) : Int :=
  match aggregate with
  | .count => numbers.length
  | .sum => numbers.sum
  | .avg => numbers.sum.tdiv numbers.length
  | .min => numbers.min?.getD 0
  | .max => numbers.max?.getD 0

/-- The number of rows that an aggregator may take in. -/
def rowLimit : Nat := 2 ^ 32

theorem sum_bounds {numbers : List Int} (words : ∀ n ∈ numbers, IsWord n) :
    -0x80000000 * numbers.length ≤ numbers.sum ∧ numbers.sum ≤ 0x80000000 * numbers.length := by
  induction numbers with
  | nil => decide
  | cons n numbers ih =>
    obtain ⟨ge, le⟩ := ih fun m mem => words m (List.mem_cons_of_mem n mem)
    obtain ⟨n_ge, n_lt⟩ := words n List.mem_cons_self
    rw [List.sum_cons, List.length_cons]
    push_cast
    constructor <;> omega

theorem toInt_ofInt_sum {numbers : List Int} (words : ∀ n ∈ numbers, IsWord n) (few : numbers.length < rowLimit) :
    (Int64.ofInt numbers.sum).toInt = numbers.sum := by
  obtain ⟨ge, le⟩ := sum_bounds words
  have few' : numbers.length < 2 ^ 32 := few
  exact Int64.toInt_ofInt_of_le (by omega) (by omega)

theorem toInt_ofNat_length {numbers : List Int} (few : numbers.length < rowLimit) :
    (Int64.ofNat numbers.length).toInt = numbers.length := by
  have few' : numbers.length < 2 ^ 32 := few
  exact Int64.toInt_ofNat_of_lt (by omega)

theorem Aggregate.toInt_of (aggregate : Aggregate) {numbers : List Int} (words : ∀ n ∈ numbers, IsWord n)
    (some : numbers ≠ []) (few : numbers.length < rowLimit) :
    (aggregate.of numbers).toInt = aggregate.exact numbers := by
  have word (n : Int) (word : IsWord n) : (Int64.ofInt n).toInt = n := by
    obtain ⟨ge, lt⟩ := word
    exact Int64.toInt_ofInt_of_le (by omega) (by omega)
  obtain ⟨first, rest, rfl⟩ := List.exists_cons_of_ne_nil some
  cases aggregate with
  | count => exact toInt_ofNat_length few
  | sum => exact toInt_ofInt_sum words few
  | avg =>
    -- A quotient is wider than a word only where the least word is divided by minus one.
    have above : Int64.ofInt (first :: rest).sum ≠ Int64.minValue := by
      intro least
      have sum_eq := congrArg Int64.toInt least
      rw [toInt_ofInt_sum words few, Int64.toInt_minValue] at sum_eq
      obtain ⟨ge, -⟩ := sum_bounds words
      have few' : (first :: rest).length < 2 ^ 32 := few
      omega
    rw [of, exact, Int64.toInt_div_of_ne_left _ _ above, toInt_ofInt_sum words few, toInt_ofNat_length few]
  | min => exact word _ (words _ (List.min?_mem List.min?_cons'))
  | max => exact word _ (words _ (List.max?_mem List.max?_cons'))

/-! ## Checks in any order -/

section Checks

variable {ε α β : Type} {f : α → Except ε β} {list list' : List α} {results : List β}

theorem ok_of_mapM_eq_ok {a : α} (h : list.mapM f = .ok results) (mem : a ∈ list) : ∃ b, f a = .ok b := by
  cases made : f a with
  | ok b => exact ⟨b, rfl⟩
  | error e =>
    obtain ⟨e', failed⟩ := mapM_eq_error mem made
    cases failed.symm.trans h

theorem of_mapM_eq_ok_map {g : α → β} (h : list.mapM f = .ok results)
    (each : ∀ a ∈ list, ∀ b, f a = .ok b → b = g a) : results = list.map g := by
  induction list generalizing results with
  | nil =>
    cases h
    rfl
  | cons a list ih =>
    rw [List.mapM_cons] at h
    obtain ⟨b, first, h⟩ := of_bind_eq_ok h
    obtain ⟨rest, rest_eq, h⟩ := of_bind_eq_ok h
    cases h
    rw [List.map_cons, each a List.mem_cons_self b first,
      ih rest_eq fun other mem => each other (List.mem_cons_of_mem a mem)]

theorem mapM_perm (perm : list.Perm list') (h : list.mapM f = .ok results) :
    ∃ results', list'.mapM f = .ok results' ∧ results'.Perm results := by
  induction perm generalizing results with
  | nil => exact ⟨results, h, .refl results⟩
  | cons a _ ih =>
    rw [List.mapM_cons] at h
    obtain ⟨b, first, h⟩ := of_bind_eq_ok h
    obtain ⟨rest, rest_eq, h⟩ := of_bind_eq_ok h
    cases h
    obtain ⟨rest', rest_eq', perm'⟩ := ih rest_eq
    refine ⟨b :: rest', ?_, perm'.cons b⟩
    rw [List.mapM_cons, first, rest_eq']
    rfl
  | swap a a' list =>
    rw [List.mapM_cons, List.mapM_cons] at h
    obtain ⟨b', second, h⟩ := of_bind_eq_ok h
    obtain ⟨rest, rest_eq, h⟩ := of_bind_eq_ok h
    obtain ⟨b, first, rest_eq⟩ := of_bind_eq_ok rest_eq
    obtain ⟨rest, list_eq, rest_eq⟩ := of_bind_eq_ok rest_eq
    cases rest_eq
    cases h
    refine ⟨b :: b' :: rest, ?_, .swap b' b rest⟩
    rw [List.mapM_cons, List.mapM_cons, first, second, list_eq]
    rfl
  | trans _ _ ih₁ ih₂ =>
    obtain ⟨results₁, eq₁, perm₁⟩ := ih₁ h
    obtain ⟨results₂, eq₂, perm₂⟩ := ih₂ eq₁
    exact ⟨results₂, eq₂, perm₂.trans perm₁⟩

end Checks

/-! ## Refused rows -/

/-- The row of a group: its grouping value, if rows are grouped, and its result. -/
def Row.ofGroup (schema : Schema) (group : List Value) (result : Int32) : Row := ⟨schema, group ++ [.int result], none⟩

namespace Grouping

/-- The grouping column, where its type is given too. Otherwise rows are not grouped. -/
def paired (grouping : Grouping) : Option Nat := if grouping.type.isSome then grouping.column else none

theorem key_paired (grouping : Grouping) : (⟨grouping.paired, grouping.type⟩ : Grouping).key = grouping.key := by
  obtain ⟨column, type⟩ := grouping
  cases type <;> cases column <;> rfl

theorem valueOfKey_paired (grouping : Grouping) :
    (⟨grouping.paired, grouping.type⟩ : Grouping).valueOfKey = grouping.valueOfKey := by
  obtain ⟨column, type⟩ := grouping
  cases type <;> cases column <;> rfl

end Grouping

namespace Aggregator

def aggregation (aggregator : Aggregator) : Aggregation :=
  ⟨aggregator.column, aggregator.type, aggregator.grouping.paired, aggregator.grouping.type, aggregator.aggregate,
    .empty⟩

/-- Takes in rows one by one. A row that is refused changes nothing. Gives the rows that were taken in, too. -/
def takeAll (aggregator : Aggregator) : List Row → Aggregator × List Row
  | [] => (aggregator, [])
  | row :: rows =>
    match aggregator.merge row with
    | .error _ => aggregator.takeAll rows
    | .ok next => (next.takeAll rows).map id (row :: ·)

/-- The rows of all groups, computed of rows that are all at hand. -/
def batch (aggregator : Aggregator) (schema : Schema) (rows : List Row) : List Row :=
  (rows.map aggregator.aggregation.groupOf).dedup.map fun group =>
    .ofGroup schema group (.ofInt (aggregator.aggregate.exact (aggregator.aggregation.numbers rows group)))

/-- A row is taken in where it has a group and a number, whatever was taken in before. -/
def accepts (aggregator : Aggregator) (row : Row) : Bool :=
  (aggregator.grouping.key row).isOk && (aggregator.amount row).isOk

variable {aggregator next : Aggregator} {row : Row}

theorem merge_cases (aggregator : Aggregator) (row : Row) :
    (∃ groups, aggregator.merge row = .ok { aggregator with groups := groups } ∧ aggregator.accepts row = true) ∨
      ∃ e, aggregator.merge row = .error e ∧ aggregator.accepts row = false := by
  unfold merge accepts
  cases aggregator.grouping.key row with
  | error e => exact .inr ⟨e, rfl, rfl⟩
  | ok key =>
    cases aggregator.amount row with
    | error e => exact .inr ⟨e, rfl, rfl⟩
    | ok v => exact .inl ⟨_, rfl, rfl⟩

theorem merge_withGroups (aggregator : Aggregator) (row : Row) :
    (aggregator.aggregation.withGroups aggregator.groups).merge row =
      (aggregator.merge row).map fun next => aggregator.aggregation.withGroups next.groups := by
  have key_eq : (aggregator.aggregation.withGroups aggregator.groups).grouping.key row = aggregator.grouping.key row :=
    congrFun aggregator.grouping.key_paired row
  have amount_eq : (aggregator.aggregation.withGroups aggregator.groups).amount row = aggregator.amount row := rfl
  unfold merge
  rw [key_eq, amount_eq]
  cases aggregator.grouping.key row with
  | error e => rfl
  | ok key => cases aggregator.amount row <;> rfl

theorem results_eq (aggregator : Aggregator) (schema : Schema) :
    aggregator.results schema = aggregator.groups.entries.mapM fun entry =>
      aggregator.resultRow schema entry.1 entry.2 := rfl

theorem results_withGroups (aggregator : Aggregator) (schema : Schema) :
    (aggregator.aggregation.withGroups aggregator.groups).results schema = aggregator.results schema := by
  unfold results resultRow
  simp only [Aggregation.withGroups, aggregation, Grouping.valueOfKey_paired]

theorem takes_of_accepts (fits : row.Fits) (accepted : aggregator.accepts row = true) :
    aggregator.aggregation.Takes row := by
  unfold accepts at accepted
  obtain ⟨keyed, counted⟩ := Bool.and_eq_true_iff.mp accepted
  apply Aggregation.takes_of_values
  · obtain ⟨type, column, aggregate, ⟨group, groupType⟩, groups⟩ := aggregator
    cases groupType with
    | none => exact .inl ⟨rfl, rfl⟩
    | some groupType =>
      cases group with
      | none => exact .inl ⟨rfl, rfl⟩
      | some index =>
        simp only [Grouping.key, Row.value] at keyed
        cases here : row.values[index]? with
        | none =>
          rw [here] at keyed
          cases keyed
        | some v =>
          simp only [here, bind, Except.bind] at keyed
          split at keyed
          case isTrue type_eq =>
            refine .inr ⟨index, groupType, v, rfl, rfl, here, type_eq, fits.value here, ?_⟩
            exact congrArg Option.toList here
          case isFalse => cases keyed
  · unfold amount Row.value at counted
    cases here : row.values[aggregator.column]? with
    | none =>
      rw [here] at counted
      cases counted
    | some v =>
      refine ⟨v, here, ?_⟩
      rw [here] at counted
      change v.type = aggregator.type
      cases type_eq : aggregator.type with
      | int =>
        rw [type_eq] at counted
        cases v with
        | int n => rfl
        | string text => cases counted
      | string =>
        rw [type_eq] at counted
        cases v with
        | int n => cases counted
        | string text => rfl

/-! ## Taking in all rows -/

/-- What an aggregator knows once it took in some rows and refused others. -/
structure Took (aggregator last : Aggregator) (taken : List Row) : Prop where
  last_eq : last = { aggregator with groups := last.groups }
  takes : ∀ row ∈ taken, aggregator.aggregation.Takes row
  tallied : aggregator.aggregation.Tallied last.groups taken

theorem Took.merge {last : Aggregator} {taken : List Row} (h : aggregator.Took last taken) (fits : row.Fits)
    (merged : last.merge row = .ok next) : aggregator.Took next (taken ++ [row]) := by
  have same : last.aggregation = aggregator.aggregation := by rw [h.last_eq]; rfl
  have takes : aggregator.aggregation.Takes row := by
    rcases last.merge_cases row with ⟨groups, -, accepted⟩ | ⟨e, refused, -⟩
    · exact same ▸ takes_of_accepts fits accepted
    · cases refused.symm.trans merged
  obtain ⟨groups, merge_eq, tallied⟩ := takes.merge_ok h.tallied
  rw [← same, merge_withGroups, merged] at merge_eq
  obtain rfl : next.groups = groups := congrArg Aggregator.groups (Except.ok.inj merge_eq)
  refine ⟨?_, fun other mem => ?_, tallied⟩
  · rcases last.merge_cases row with ⟨groups, merge_eq, -⟩ | ⟨e, refused, -⟩
    · cases merged.symm.trans merge_eq
      rw [h.last_eq]
    · cases refused.symm.trans merged
  · rcases List.mem_append.mp mem with mem | mem
    · exact h.takes other mem
    · rwa [List.mem_singleton.mp mem]

theorem Took.takeAll {last : Aggregator} {taken rows : List Row} (h : aggregator.Took last taken)
    (fits : ∀ row ∈ rows, row.Fits) : aggregator.Took (last.takeAll rows).1 (taken ++ (last.takeAll rows).2) := by
  induction rows generalizing last taken with
  | nil => rwa [Aggregator.takeAll, List.append_nil]
  | cons row rows ih =>
    have fits' : ∀ row ∈ rows, row.Fits := fun other mem => fits other (List.mem_cons_of_mem row mem)
    unfold Aggregator.takeAll
    split
    case h_1 => exact ih h fits'
    case h_2 next merged =>
      have after := ih (h.merge (fits row List.mem_cons_self) merged) fits'
      rwa [List.append_assoc] at after

theorem of_ofType_eq_ok {type : ColumnType} {grouping : Grouping} {column : Nat} {aggregate : Aggregate}
    (made : ofType type grouping column aggregate = .ok aggregator) :
    aggregator = ⟨type, column, aggregate, grouping, .empty⟩ := by
  cases type with
  | int =>
    cases made
    rfl
  | string =>
    unfold ofType ofStrings at made
    dsimp only at made
    split at made
    · cases made
      rfl
    · cases made

theorem took_nothing (aggregator : Aggregator) (none : aggregator.groups = .empty) :
    aggregator.Took aggregator [] := by
  refine ⟨rfl, nofun, ?_⟩
  rw [none]
  exact aggregator.aggregation.tallied_empty

theorem takeAll_snd (aggregator : Aggregator) (rows : List Row) :
    (aggregator.takeAll rows).2 = rows.filter aggregator.accepts := by
  induction rows generalizing aggregator with
  | nil => rfl
  | cons row rows ih =>
    unfold takeAll
    rcases aggregator.merge_cases row with ⟨groups, merge_eq, accepted⟩ | ⟨e, refused, rejected⟩
    · rw [merge_eq, List.filter_cons_of_pos accepted]
      exact congrArg (row :: ·) (ih _)
    · rw [refused, List.filter_cons_of_neg (Bool.not_eq_true _ ▸ rejected)]
      exact ih aggregator

theorem foldlM_merge_eq_ok_iff (aggregator : Aggregator) (rows : List Row) {last : Aggregator} :
    rows.foldlM (fun aggregator row => aggregator.merge row) aggregator = .ok last ↔
      (∀ row ∈ rows, aggregator.accepts row = true) ∧ (aggregator.takeAll rows).1 = last := by
  induction rows generalizing aggregator with
  | nil => exact ⟨fun same => ⟨nofun, Except.ok.inj same⟩, fun ⟨_, same⟩ => congrArg Except.ok same⟩
  | cons row rows ih =>
    rw [List.foldlM_cons, List.forall_mem_cons]
    unfold takeAll
    rcases aggregator.merge_cases row with ⟨groups, merge_eq, accepted⟩ | ⟨e, refused, rejected⟩
    · rw [merge_eq, accepted]
      exact (ih { aggregator with groups }).trans ⟨fun h => ⟨⟨rfl, h.1⟩, h.2⟩, fun h => ⟨h.1.2, h.2⟩⟩
    · rw [refused, rejected]
      exact ⟨nofun, fun h => absurd h.1.1 nofun⟩

/-! ## What is known in the end -/

end Aggregator

/-- The tally knows the number, the sum and the aggregate of these numbers. -/
structure Tally.Exact (tally : Tally) (aggregate : Aggregate) (numbers : List Int) : Prop where
  count_eq : tally.count.toInt = numbers.length
  sum_eq : tally.sum.toInt = numbers.sum
  value_eq : tally.value.toInt = aggregate.exact numbers

namespace Aggregation

variable {aggregation : Aggregation} {groups groups' : Assoc String Tally} {below below' : List Row} {row : Row}

theorem words_numbers (aggregation : Aggregation) (below : List Row) (group : List Value) :
    ∀ n ∈ aggregation.numbers below group, IsWord n := by
  intro n mem
  obtain ⟨row, -, rfl⟩ := List.mem_map.mp mem
  exact aggregation.isWord_numberOf row

theorem numbers_ne_nil (mem : row ∈ below) : aggregation.numbers below (aggregation.groupOf row) ≠ [] :=
  List.ne_nil_of_mem (List.mem_map_of_mem (List.mem_filter.mpr ⟨mem, decide_eq_true rfl⟩))

theorem length_numbers_le (aggregation : Aggregation) (below : List Row) (group : List Value) :
    (aggregation.numbers below group).length ≤ below.length := by
  rw [numbers, List.length_map]
  exact List.length_filter_le _ _

theorem exact_of (few : below.length < rowLimit) (mem : row ∈ below) :
    (Tally.of aggregation.aggregate (aggregation.numbers below (aggregation.groupOf row))).Exact aggregation.aggregate
      (aggregation.numbers below (aggregation.groupOf row)) := by
  have words := aggregation.words_numbers below (aggregation.groupOf row)
  have few' := Nat.lt_of_le_of_lt (aggregation.length_numbers_le below (aggregation.groupOf row)) few
  exact ⟨toInt_ofNat_length few', toInt_ofInt_sum words few',
    aggregation.aggregate.toInt_of words (numbers_ne_nil mem) few'⟩

theorem Tallied.entries_perm (tallied : aggregation.Tallied groups below)
    (tallied' : aggregation.Tallied groups' below') (perm : below.Perm below') :
    groups.entries.Perm groups'.entries := by
  have get?_eq (key : String) : groups.get? key = groups'.get? key := by
    have numbers_perm : (aggregation.numbersOfKey below key).Perm (aggregation.numbersOfKey below' key) :=
      (perm.filter _).map _
    have nil_iff : aggregation.numbersOfKey below key = [] ↔ aggregation.numbersOfKey below' key = [] := by
      rw [← List.length_eq_zero_iff, ← List.length_eq_zero_iff, numbers_perm.length_eq]
    rw [tallied, tallied', Tally.of, Tally.of, aggregation.aggregate.of_perm numbers_perm, numbers_perm.sum_eq,
      numbers_perm.length_eq]
    simp only [nil_iff]
  rw [List.perm_ext_iff_of_nodup (groups.nodup.of_map _) (groups'.nodup.of_map _)]
  intro entry
  rw [← groups.get?_eq_some_iff, ← groups'.get?_eq_some_iff, get?_eq]

theorem Takes.of_resultRow_eq_ok (h : aggregation.Takes row) {schema : Schema} {tally : Tally} {result : Row}
    (given : (aggregation.withGroups groups).resultRow schema (keyOf (aggregation.groupOf row)) tally = .ok result) :
    IsWord tally.value.toInt ∧
      result = .ofGroup schema (aggregation.groupOf row) tally.value.toInt32 := by
  unfold Aggregator.resultRow at given
  obtain ⟨v, value_eq, given⟩ := of_bind_eq_ok given
  obtain ⟨group, group_eq, given⟩ := of_bind_eq_ok given
  cases h.valueOfKey_eq.symm.trans group_eq
  unfold Aggregator.resultValue at value_eq
  split at value_eq
  case isFalse => cases value_eq
  case isTrue word =>
    cases value_eq
    refine ⟨word, ?_⟩
    unfold Row.ofValues at given
    split at given
    · cases given
    · split at given
      · cases given
      · cases given
        rw [List.map_append, h.fit_eq]
        rfl

theorem Tallied.of_results_eq_ok (tallied : aggregation.Tallied groups below)
    (takes : ∀ row ∈ below, aggregation.Takes row) {schema : Schema} {results : List Row}
    (given : (aggregation.withGroups groups).results schema = .ok results) :
    (∀ row ∈ below, IsWord (aggregation.resultOf below (aggregation.groupOf row)).toInt) ∧
      results.Perm ((below.map aggregation.groupOf).dedup.map fun group =>
        .ofGroup schema group (aggregation.resultOf below group).toInt32) := by
  rw [Aggregator.results_eq] at given
  constructor
  · intro row mem
    obtain ⟨result, made⟩ := ok_of_mapM_eq_ok given (tallied.entry_of takes mem)
    exact ((takes row mem).of_resultRow_eq_ok made).1
  · have results_eq : results = groups.entries.map fun entry => .ofGroup schema (aggregation.groupOfKey entry.1)
        (aggregation.resultOf below (aggregation.groupOfKey entry.1)).toInt32 := by
      refine of_mapM_eq_ok_map given fun entry entry_mem result result_eq => ?_
      obtain ⟨row, mem, key_eq, tally_eq⟩ := tallied.of_entry takes entry_mem
      rw [key_eq] at result_eq
      rw [key_eq, (takes row mem).groupOfKey_eq, ((takes row mem).of_resultRow_eq_ok result_eq).2, tally_eq]
      rfl
    have perm := (tallied.groups_perm takes).map fun group =>
      Row.ofGroup schema group (aggregation.resultOf below group).toInt32
    rw [List.map_map] at perm
    rw [results_eq]
    exact perm

end Aggregation

namespace Aggregator

variable {aggregator last : Aggregator} {taken : List Row}

theorem Took.exact (h : aggregator.Took last taken) (few : taken.length < rowLimit) {key : String} {tally : Tally}
    (found : last.groups.get? key = some tally) :
    ∃ row ∈ taken, key = Aggregation.keyOf (aggregator.aggregation.groupOf row) ∧ tally.Exact aggregator.aggregate
      (aggregator.aggregation.numbers taken (aggregator.aggregation.groupOf row)) := by
  obtain ⟨row, mem, key_eq, rfl⟩ := h.tallied.of_entry h.takes ((last.groups.get?_eq_some_iff key tally).mp found)
  exact ⟨row, mem, key_eq, Aggregation.exact_of few mem⟩

theorem Took.results (h : aggregator.Took last taken) (few : taken.length < rowLimit) {schema : Schema}
    {results : List Row} (given : last.results schema = .ok results) :
    (∀ row ∈ taken, IsWord (aggregator.aggregate.exact
        (aggregator.aggregation.numbers taken (aggregator.aggregation.groupOf row)))) ∧
      results.Perm (aggregator.batch schema taken) := by
  have same : last.aggregation = aggregator.aggregation := by rw [h.last_eq]; rfl
  have exact (row : Row) (mem : row ∈ taken) :
      (aggregator.aggregation.resultOf taken (aggregator.aggregation.groupOf row)).toInt = aggregator.aggregate.exact
        (aggregator.aggregation.numbers taken (aggregator.aggregation.groupOf row)) :=
    (Aggregation.exact_of few mem).value_eq
  rw [← last.results_withGroups, same] at given
  obtain ⟨words, perm⟩ := h.tallied.of_results_eq_ok h.takes given
  refine ⟨fun row mem => exact row mem ▸ words row mem, ?_⟩
  have batch_eq : aggregator.batch schema taken = (taken.map aggregator.aggregation.groupOf).dedup.map fun group =>
      .ofGroup schema group (aggregator.aggregation.resultOf taken group).toInt32 := by
    refine List.map_congr_left fun group group_mem => ?_
    obtain ⟨row, mem, rfl⟩ := List.mem_map.mp (List.mem_dedup.mp group_mem)
    rw [← exact row mem, Int32.ofInt_int64ToInt]
  rwa [batch_eq]

theorem Took.results_perm {last' : Aggregator} {taken' : List Row} (h : aggregator.Took last taken)
    (h' : aggregator.Took last' taken') (perm : taken.Perm taken') {schema : Schema} {results : List Row}
    (given : last.results schema = .ok results) :
    ∃ results', last'.results schema = .ok results' ∧ results'.Perm results := by
  have row_eq (entry : String × Tally) :
      last.resultRow schema entry.1 entry.2 = last'.resultRow schema entry.1 entry.2 := by
    rw [h.last_eq, h'.last_eq]
    rfl
  rw [results_eq] at given
  simp only [row_eq] at given
  exact mapM_perm (h.tallied.entries_perm h'.tallied perm) given

theorem batch_ungrouped (schema : Schema)
    (ungrouped : aggregator.grouping.column = none ∨ aggregator.grouping.type = none) (some : taken ≠ []) :
    aggregator.batch schema taken = [.ofGroup schema [] (.ofInt (aggregator.aggregate.exact
      (taken.map aggregator.aggregation.numberOf)))] := by
  have paired_eq : aggregator.grouping.paired = none := by
    unfold Grouping.paired
    rcases ungrouped with none | none
    · rw [none, ite_self]
    · rw [none]
      rfl
  have groupOf_eq (row : Row) : aggregator.aggregation.groupOf row = [] := by
    rw [Aggregation.groupOf, aggregation, paired_eq]
    rfl
  have groups_eq : (taken.map aggregator.aggregation.groupOf).dedup = [[]] := by
    have nodup := List.nodup_dedup (taken.map aggregator.aggregation.groupOf)
    obtain ⟨row, rest, rfl⟩ := List.exists_cons_of_ne_nil some
    have all_eq : (row :: rest).map aggregator.aggregation.groupOf = List.replicate (rest.length + 1) [] :=
      List.eq_replicate_iff.mpr ⟨by simp, fun group mem => by
        obtain ⟨row, -, rfl⟩ := List.mem_map.mp mem
        exact groupOf_eq row⟩
    rw [all_eq, List.replicate_dedup (Nat.succ_ne_zero _)]
  have numbers_eq : aggregator.aggregation.numbers taken [] = taken.map aggregator.aggregation.numberOf := by
    rw [Aggregation.numbers, List.filter_eq_self.mpr fun row _ => decide_eq_true (groupOf_eq row)]
  rw [batch, groups_eq, List.map_singleton, numbers_eq]

/-- Of whatever rows an aggregator is given, its tallies are exact at any point. Its results are those of the rows that
were taken in when they are all at hand, and the same rows in another order leave the same results. -/
theorem results_of_takeAll {type : ColumnType} {grouping : Grouping} {column : Nat} {aggregate : Aggregate}
    {start : Aggregator} (made : ofType type grouping column aggregate = .ok start) {rows : List Row}
    (rows_made : ∀ row ∈ rows, row.Made) (few : rows.length < rowLimit) {last : Aggregator} {taken : List Row}
    (run : start.takeAll rows = (last, taken)) :
    (∀ key tally, last.groups.get? key = some tally →
      ∃ row ∈ taken, key = Aggregation.keyOf (start.aggregation.groupOf row) ∧
        tally.Exact aggregate (start.aggregation.numbers taken (start.aggregation.groupOf row))) ∧
    ∀ schema results, last.results schema = .ok results →
      results.Perm (start.batch schema taken) ∧
      (∀ row ∈ taken,
        IsWord (aggregate.exact (start.aggregation.numbers taken (start.aggregation.groupOf row)))) ∧
      (grouping.column = none ∨ grouping.type = none → taken ≠ [] →
        results = [.ofGroup schema [] (.ofInt (aggregate.exact (taken.map start.aggregation.numberOf)))]) ∧
      ∀ rows', rows'.Perm rows →
        ∃ results', (start.takeAll rows').1.results schema = .ok results' ∧ results'.Perm results := by
  have start_eq := of_ofType_eq_ok made
  have none : start.groups = .empty := congrArg groups start_eq
  obtain rfl : start.aggregate = aggregate := congrArg Aggregator.aggregate start_eq
  obtain rfl : start.grouping = grouping := congrArg Aggregator.grouping start_eq
  have fits : ∀ row ∈ rows, row.Fits := fun row mem => (rows_made row mem).fits
  have took : start.Took last taken := by
    have took := (took_nothing start none).takeAll fits
    rwa [run, List.nil_append] at took
  have taken_eq : taken = rows.filter start.accepts := by
    rw [← takeAll_snd, run]
  have few' : taken.length < rowLimit := by
    rw [taken_eq]
    exact Nat.lt_of_le_of_lt (List.length_filter_le _ rows) few
  refine ⟨fun key tally found => took.exact few' found, fun schema results given => ?_⟩
  obtain ⟨words, perm⟩ := took.results few' given
  refine ⟨perm, words, fun ungrouped some => ?_, fun rows' rows_perm => ?_⟩
  · rw [batch_ungrouped schema ungrouped some] at perm
    exact List.perm_singleton.mp perm
  · have took' := (took_nothing start none).takeAll fun row mem => fits row (rows_perm.mem_iff.mp mem)
    refine took.results_perm took' ?_ given
    rw [List.nil_append, takeAll_snd, taken_eq]
    exact (rows_perm.filter _).symm

def measure (group value : Int32) : Row := ⟨.ofTypes [.int, .int], [.int group, .int value], none⟩

/-- A row of which the aggregator below cannot take in the first value. -/
def note : Row := ⟨.ofTypes [.string, .int], [.string "n", .int 1], none⟩

theorem results_of_takeAll_refusing_note :
    ∃ start last taken, ofType .int ⟨some 0, some .int⟩ 1 .avg = .ok start ∧
      (∀ row ∈ [measure 1 (-3), measure 2 5, note, measure 1 (-4)], row.Made) ∧
      [measure 1 (-3), measure 2 5, note, measure 1 (-4)].length < rowLimit ∧
      start.takeAll [measure 1 (-3), measure 2 5, note, measure 1 (-4)] = (last, taken) ∧
      ∃ results, last.results (.ofTypes [.int, .int]) = .ok results ∧ results.Perm [measure 2 5, measure 1 (-3)] := by
  have made : ∀ row ∈ [measure 1 (-3), measure 2 5, note, measure 1 (-4)], row.Made := by
    intro row mem
    simp only [List.mem_cons, List.not_mem_nil, or_false] at mem
    rcases mem with rfl | rfl | rfl | rfl <;> exact .of_fits rfl rfl
  have few : [measure 1 (-3), measure 2 5, note, measure 1 (-4)].length < rowLimit := by decide
  have start : ofType .int ⟨some 0, some .int⟩ 1 .avg = .ok (ofInts ⟨some 0, some .int⟩ 1 .avg) := rfl
  obtain ⟨-, given⟩ := results_of_takeAll start made few rfl
  obtain ⟨perm, -⟩ := given (.ofTypes [.int, .int]) [measure 1 (-3), measure 2 5] rfl
  exact ⟨_, _, _, start, made, few, rfl, _, rfl, perm⟩

end Aggregator

end RowStore
