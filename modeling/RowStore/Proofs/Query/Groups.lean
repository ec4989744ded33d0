import Mathlib.Data.List.Dedup
import RowStore.Proofs.Codec.NumberText
import RowStore.Proofs.Query.Tallies

/-!
# Groups of rows

An aggregation gives one row for each group of the rows that it took in: the grouping value, if rows are grouped, and
the aggregate of the numbers of the group. It fails where such an aggregate is wider than an integer column.
-/

namespace RowStore

/-! ## Checks in turn -/

section Checks

variable {ε α β : Type} {first : Except ε α} {b : β}

theorem of_bind_eq_ok {next : α → Except ε β} (h : (first >>= next) = .ok b) : ∃ a, first = .ok a ∧ next a = .ok b := by
  cases first with
  | error e => cases h
  | ok a => exact ⟨a, rfl, h⟩

theorem of_map_eq_ok {f : α → β} (h : first.map f = .ok b) : ∃ a, first = .ok a ∧ f a = b := by
  cases first with
  | error e => cases h
  | ok a =>
    cases h
    exact ⟨a, rfl, rfl⟩

theorem mapM_eq_ok {list : List α} {f : α → Except ε β} {g : α → β} (each : ∀ a ∈ list, f a = .ok (g a)) :
    list.mapM f = .ok (list.map g) := by
  induction list with
  | nil => rfl
  | cons a list ih =>
    rw [List.mapM_cons, each a List.mem_cons_self, ih fun other mem => each other (List.mem_cons_of_mem _ mem)]
    rfl

theorem of_mapM_eq_ok {list : List α} {f : α → Except ε β} {results : List β} (h : list.mapM f = .ok results) :
    ∀ b ∈ results, ∃ a ∈ list, f a = .ok b := by
  induction list generalizing results with
  | nil =>
    cases h
    exact fun b mem => absurd mem List.not_mem_nil
  | cons a list ih =>
    rw [List.mapM_cons] at h
    obtain ⟨b, first, h⟩ := of_bind_eq_ok h
    obtain ⟨rest, rest_eq, h⟩ := of_bind_eq_ok h
    cases h
    intro b' mem
    rcases List.mem_cons.mp mem with rfl | mem
    · exact ⟨a, List.mem_cons_self, first⟩
    · obtain ⟨a', mem', eq⟩ := ih rest_eq b' mem
      exact ⟨a', List.mem_cons_of_mem _ mem', eq⟩

theorem mapM_eq_error {list : List α} {f : α → Except ε β} {a : α} (mem : a ∈ list) {e : ε} (fails : f a = .error e) :
    ∃ e', list.mapM f = .error e' := by
  induction list with
  | nil => cases mem
  | cons other list ih =>
    rw [List.mapM_cons]
    cases first : f other with
    | error e' => exact ⟨e', rfl⟩
    | ok b =>
      rcases List.mem_cons.mp mem with rfl | mem
      · cases fails.symm.trans first
      · obtain ⟨e', rest⟩ := ih mem
        rw [rest]
        exact ⟨e', rfl⟩

theorem of_mapM_eq_error {list : List α} {f : α → Except ε β} {e : ε} (h : list.mapM f = .error e) :
    ∃ a ∈ list, f a = .error e := by
  induction list with
  | nil => cases h
  | cons a list ih =>
    rw [List.mapM_cons] at h
    cases first : f a with
    | error e' =>
      rw [first] at h
      cases h
      exact ⟨a, List.mem_cons_self, first⟩
    | ok b =>
      cases rest : list.mapM f with
      | error e' =>
        rw [first, rest] at h
        cases h
        obtain ⟨a', mem, fails⟩ := ih rest
        exact ⟨a', List.mem_cons_of_mem a mem, fails⟩
      | ok results =>
        rw [first, rest] at h
        cases h

end Checks

/-! ## Typed rows -/

theorem Schema.types_of_column {schema : Schema} {index : Nat} {column : Column}
    (h : schema.column index = .ok column) : schema.types[index]? = some column.type := by
  unfold Schema.column at h
  split at h
  · next here =>
    cases h
    rw [Schema.types, List.getElem?_map, here]
    rfl
  · cases h

/-- The row has values of the types of a schema, of which nothing has to be cut. -/
def Row.Typed (row : Row) (schema : Schema) : Prop := row.values.map Value.type = schema.types ∧ row.Fits

theorem Row.Fits.value {row : Row} (h : row.Fits) {index : Nat} {v : Value} (here : row.values[index]? = some v) :
    v.fit = v := by
  have fit_eq := congrArg (fun values => values[index]?) h
  simpa only [List.getElem?_map, here, Option.map_some, Option.some.injEq] using fit_eq

theorem Row.exists_value {row : Row} {schema : Schema} (types_eq : row.values.map Value.type = schema.types)
    {index : Nat} {type : ColumnType} (type_eq : schema.types[index]? = some type) :
    ∃ v, row.values[index]? = some v ∧ v.type = type := by
  rw [← types_eq, List.getElem?_map] at type_eq
  exact Option.map_eq_some_iff.mp type_eq

theorem Row.Typed.value {row : Row} {schema : Schema} (h : row.Typed schema) {index : Nat} {type : ColumnType}
    (type_eq : schema.types[index]? = some type) : ∃ v, row.values[index]? = some v ∧ v.type = type ∧ v.fit = v := by
  obtain ⟨v, here, v_type⟩ := Row.exists_value h.1 type_eq
  exact ⟨v, here, v_type, h.2.value here⟩

namespace Aggregation

/-! ## The meaning of an aggregation -/

section Meaning

variable (aggregation : Aggregation) (below : List Row)

/-- The grouping value of a row, if rows are grouped. -/
def groupOf (row : Row) : List Value := (aggregation.group.bind fun index => row.values[index]?).toList

/-- The number that a row adds to its group. A text adds none. -/
def numberOf (row : Row) : Int :=
  match row.values[aggregation.column]? with
  | some (.int n) => n.toInt
  | _ => 0

def numbers (group : List Value) : List Int :=
  (below.filter fun row => aggregation.groupOf row = group).map aggregation.numberOf

def resultOf (group : List Value) : Int64 := aggregation.aggregate.of (aggregation.numbers below group)

def summary (group : List Value) : Row :=
  ⟨aggregation.schema, group ++ [.int (aggregation.resultOf below group).toInt32], none⟩

/-- The result of each group can be a value of a column. -/
def InRange : Prop := ∀ row ∈ below, IsWord (aggregation.resultOf below (aggregation.groupOf row)).toInt

/-- The rows are one for each group, in any order. -/
def Summarizes (rows : List Row) : Prop :=
  aggregation.InRange below ∧ rows.Perm ((below.map aggregation.groupOf).dedup.map (aggregation.summary below))

end Meaning

variable {aggregation : Aggregation} {below below' rows rows' : List Row}

theorem resultOf_perm (perm : below.Perm below') (group : List Value) :
    aggregation.resultOf below group = aggregation.resultOf below' group :=
  aggregation.aggregate.of_perm ((perm.filter _).map _)

theorem InRange.perm (h : aggregation.InRange below) (perm : below.Perm below') : aggregation.InRange below' := by
  intro row mem
  rw [← resultOf_perm perm]
  exact h row (perm.mem_iff.mpr mem)

theorem Summarizes.perm (h : aggregation.Summarizes below rows) (h' : aggregation.Summarizes below' rows')
    (perm : below.Perm below') : rows.Perm rows' := by
  have summary_eq : aggregation.summary below = aggregation.summary below' := by
    funext group
    rw [summary, summary, resultOf_perm perm]
  have groups := ((perm.map aggregation.groupOf).dedup).map (aggregation.summary below)
  rw [summary_eq] at groups
  have before := h.2
  rw [summary_eq] at before
  exact before.trans (groups.trans h'.2.symm)

/-! ## Planned aggregations -/

/-- The aggregation was planned for rows of this schema. -/
structure Suits (aggregation : Aggregation) (input : Schema) : Prop where
  columnType_eq : input.types[aggregation.column]? = some aggregation.columnType
  groupType_eq : ∀ index, aggregation.group = some index →
    ∃ type, aggregation.groupType = some type ∧ input.types[index]? = some type
  ungrouped : aggregation.group = none → aggregation.groupType = none
  counted : aggregation.columnType = .string → aggregation.aggregate = .count
  types_eq : aggregation.schema.types = aggregation.groupType.toList ++ [.int]

theorem suits_of_plan {input : Schema} {column : Nat} {group : Option Nat} {aggregate : Aggregate}
    (h : plan input column group aggregate = .ok aggregation) : aggregation.Suits input := by
  unfold plan at h
  obtain ⟨target, target_eq, h⟩ := of_bind_eq_ok h
  -- What is left to check once the grouping column, if there is one, was found.
  have finish : ∀ groupColumn : Option Column,
      (∀ index, group = some index → ∃ found, groupColumn = some found ∧ input.column index = .ok found) →
      (group = none → groupColumn = none) →
      (if target.type = .string ∧ aggregate ≠ .count then
          .error (.aggregateUnsupported aggregate.text target.type.text)
        else .ok ⟨column, target.type, group, groupColumn.map Column.type, aggregate,
          ⟨groupColumn.toList ++ [⟨.int, some (resultName aggregate target.name)⟩]⟩⟩ : Except StoreError Aggregation) =
        .ok aggregation → aggregation.Suits input := by
    intro groupColumn found ungrouped h
    by_cases refused : target.type = .string ∧ aggregate ≠ .count
    · rw [if_pos refused] at h
      cases h
    · rw [if_neg refused] at h
      cases h
      constructor
      case columnType_eq => exact Schema.types_of_column target_eq
      case groupType_eq =>
        intro index same
        obtain ⟨column', rfl, column_eq⟩ := found index same
        exact ⟨column'.type, rfl, Schema.types_of_column column_eq⟩
      case ungrouped =>
        intro none
        rw [ungrouped none]
        rfl
      case counted =>
        intro string
        by_contra other
        exact refused ⟨string, other⟩
      case types_eq => cases groupColumn <;> rfl
  cases group with
  | none => exact finish none nofun (fun _ => rfl) h
  | some index =>
    obtain ⟨groupColumn, group_eq, h⟩ := of_bind_eq_ok h
    obtain ⟨column', column_eq, rfl⟩ := of_map_eq_ok group_eq
    refine finish (some column') ?_ nofun h
    intro other same
    cases same
    exact ⟨column', rfl, column_eq⟩

/-! ## Keys and numbers of typed rows -/

def keyOf : List Value → String
  | [] => Grouping.commonKey
  | v :: _ => v.text

def withGroups (aggregation : Aggregation) (groups : Assoc String Tally) : Aggregator :=
  ⟨aggregation.columnType, aggregation.column, aggregation.aggregate, ⟨aggregation.group, aggregation.groupType⟩,
    groups⟩

variable {input : Schema} {row other : Row}

theorem Suits.start_eq (h : aggregation.Suits input) : aggregation.start = .ok (aggregation.withGroups .empty) := by
  unfold start Aggregator.ofType withGroups
  cases type_eq : aggregation.columnType with
  | int => rfl
  | string =>
    unfold Aggregator.ofStrings
    rw [if_pos (h.counted type_eq)]

theorem Suits.groupOf_eq (h : aggregation.Suits input) (typed : row.Typed input) :
    (aggregation.group = none ∧ aggregation.groupOf row = []) ∨
      ∃ index type v, aggregation.group = some index ∧ aggregation.groupType = some type ∧
        row.values[index]? = some v ∧ v.type = type ∧ v.fit = v ∧ aggregation.groupOf row = [v] := by
  unfold groupOf
  cases group_eq : aggregation.group with
  | none => exact .inl ⟨rfl, rfl⟩
  | some index =>
    obtain ⟨type, groupType_eq, type_eq⟩ := h.groupType_eq index group_eq
    obtain ⟨v, here, v_type, fit_eq⟩ := typed.value type_eq
    refine .inr ⟨index, type, v, rfl, groupType_eq, here, v_type, fit_eq, ?_⟩
    rw [Option.bind_some, here]
    rfl

theorem Suits.typed_groupOf (h : aggregation.Suits input) (typed : row.Typed input) :
    (aggregation.groupOf row).map Value.type = aggregation.groupType.toList ∧
      (aggregation.groupOf row).map Value.fit = aggregation.groupOf row := by
  rcases h.groupOf_eq typed with ⟨group_eq, groupOf_eq⟩ | ⟨index, type, v, -, type_eq, -, v_type, fit_eq, groupOf_eq⟩
  · rw [groupOf_eq, h.ungrouped group_eq]
    exact ⟨rfl, rfl⟩
  · rw [groupOf_eq, type_eq, List.map_singleton, List.map_singleton, v_type, fit_eq]
    exact ⟨rfl, rfl⟩

/-- The aggregation takes in the row: its group is known by a text from which the group can be read back, and its number
is one to add up. -/
structure Takes (aggregation : Aggregation) (row : Row) : Prop where
  key_eq : (⟨aggregation.group, aggregation.groupType⟩ : Grouping).key row = .ok (keyOf (aggregation.groupOf row))
  valueOfKey_eq : (⟨aggregation.group, aggregation.groupType⟩ : Grouping).valueOfKey
    (keyOf (aggregation.groupOf row)) = .ok (aggregation.groupOf row)
  fit_eq : (aggregation.groupOf row).map Value.fit = aggregation.groupOf row
  amount_eq : ∀ groups, (aggregation.withGroups groups).amount row = .ok (.ofInt (aggregation.numberOf row))

theorem takes_of_values (grouped : (aggregation.group = none ∧ aggregation.groupOf row = []) ∨
      ∃ index type v, aggregation.group = some index ∧ aggregation.groupType = some type ∧
        row.values[index]? = some v ∧ v.type = type ∧ v.fit = v ∧ aggregation.groupOf row = [v])
    (computed : ∃ v, row.values[aggregation.column]? = some v ∧ v.type = aggregation.columnType) :
    aggregation.Takes row := by
  constructor
  case key_eq =>
    unfold Grouping.key
    rcases grouped with ⟨group_eq, groupOf_eq⟩ | ⟨index, type, v, group_eq, type_eq, here, v_type, -, groupOf_eq⟩
    · rw [groupOf_eq]
      simp only [group_eq]
      rfl
    · rw [groupOf_eq]
      simp only [group_eq, type_eq, Row.value, here]
      exact if_pos v_type
  case valueOfKey_eq =>
    unfold Grouping.valueOfKey
    rcases grouped with ⟨group_eq, groupOf_eq⟩ | ⟨index, type, v, group_eq, type_eq, -, v_type, fit_eq, groupOf_eq⟩
    · rw [groupOf_eq]
      simp only [group_eq]
    · have parsed := ColumnType.parse_text fit_eq
      rw [v_type] at parsed
      rw [groupOf_eq, keyOf]
      simp only [group_eq, type_eq, parsed]
      rfl
  case fit_eq =>
    rcases grouped with ⟨-, groupOf_eq⟩ | ⟨index, type, v, -, -, -, -, fit_eq, groupOf_eq⟩
    · rw [groupOf_eq]
      rfl
    · rw [groupOf_eq, List.map_singleton, fit_eq]
  case amount_eq =>
    intro groups
    obtain ⟨v, here, v_type⟩ := computed
    unfold Aggregator.amount withGroups numberOf
    simp only [Row.value, here]
    cases type_eq : aggregation.columnType with
    | int =>
      rw [type_eq] at v_type
      cases v with
      | string s => cases v_type
      | int n =>
        have word_eq : n.toInt64 = Int64.ofInt n.toInt := by
          rw [← Int32.toInt_toInt64, Int64.ofInt_toInt]
        rw [← word_eq]
        rfl
    | string =>
      rw [type_eq] at v_type
      cases v with
      | int n => cases v_type
      | string s => rfl

theorem Suits.takes (h : aggregation.Suits input) (typed : row.Typed input) : aggregation.Takes row := by
  obtain ⟨v, here, v_type, -⟩ := typed.value h.columnType_eq
  exact takes_of_values (h.groupOf_eq typed) ⟨v, here, v_type⟩

theorem Takes.groupOf_inj (h : aggregation.Takes row) (h' : aggregation.Takes other) :
    keyOf (aggregation.groupOf row) = keyOf (aggregation.groupOf other) ↔
      aggregation.groupOf row = aggregation.groupOf other := by
  constructor
  · intro same
    have read := h.valueOfKey_eq
    rw [same, h'.valueOfKey_eq] at read
    exact (Except.ok.inj read).symm
  · exact congrArg keyOf

theorem isWord_numberOf (aggregation : Aggregation) (row : Row) : IsWord (aggregation.numberOf row) := by
  unfold numberOf
  split
  · next n _ => exact ⟨n.le_toInt, n.toInt_lt⟩
  · exact ⟨by decide, by decide⟩

/-! ## Taking in rows -/

def numbersOfKey (aggregation : Aggregation) (seen : List Row) (key : String) : List Int :=
  (seen.filter fun row => keyOf (aggregation.groupOf row) = key).map aggregation.numberOf

/-- There is a tally for each group of the rows that were taken in. -/
def Tallied (aggregation : Aggregation) (groups : Assoc String Tally) (seen : List Row) : Prop :=
  ∀ key, groups.get? key = if aggregation.numbersOfKey seen key = [] then none
    else some (.of aggregation.aggregate (aggregation.numbersOfKey seen key))

variable {groups : Assoc String Tally} {seen : List Row}

theorem tallied_empty (aggregation : Aggregation) : aggregation.Tallied .empty [] := fun _ => rfl

theorem numbersOfKey_append (seen : List Row) (row : Row) (key : String) :
    aggregation.numbersOfKey (seen ++ [row]) key = aggregation.numbersOfKey seen key ++
      if keyOf (aggregation.groupOf row) = key then [aggregation.numberOf row] else [] := by
  unfold numbersOfKey
  rw [List.filter_append, List.map_append, List.filter_singleton]
  by_cases same : keyOf (aggregation.groupOf row) = key <;> simp [same]

theorem isWord_numbersOfKey (aggregation : Aggregation) (seen : List Row) (key : String) :
    ∀ n ∈ aggregation.numbersOfKey seen key, IsWord n := by
  intro n mem
  obtain ⟨row, -, rfl⟩ := List.mem_map.mp mem
  exact aggregation.isWord_numberOf row

theorem Takes.merge_ok (h : aggregation.Takes row) (tallied : aggregation.Tallied groups seen) :
    ∃ groups', (aggregation.withGroups groups).merge row = .ok (aggregation.withGroups groups') ∧
      aggregation.Tallied groups' (seen ++ [row]) := by
  have numbers_eq := aggregation.numbersOfKey_append seen row (keyOf (aggregation.groupOf row))
  rw [if_pos rfl] at numbers_eq
  have tally_eq : (groups.get? (keyOf (aggregation.groupOf row))).elim
      (Tally.empty.add aggregation.aggregate true (.ofInt (aggregation.numberOf row)))
      (fun tally => tally.add aggregation.aggregate false (.ofInt (aggregation.numberOf row))) =
      .of aggregation.aggregate (aggregation.numbersOfKey (seen ++ [row]) (keyOf (aggregation.groupOf row))) := by
    rw [tallied, numbers_eq]
    by_cases first : aggregation.numbersOfKey seen (keyOf (aggregation.groupOf row)) = []
    · rw [if_pos first, first]
      exact Tally.add_first ..
    · rw [if_neg first]
      exact Tally.add_next _ first (isWord_numbersOfKey aggregation seen _) (isWord_numberOf ..)
  refine ⟨groups.insert (keyOf (aggregation.groupOf row))
    (.of aggregation.aggregate (aggregation.numbersOfKey (seen ++ [row]) (keyOf (aggregation.groupOf row)))), ?_, ?_⟩
  · rw [← tally_eq]
    unfold Aggregator.merge
    rw [h.amount_eq]
    simp only [withGroups, h.key_eq, bind, Except.bind]
    cases groups.get? (keyOf (aggregation.groupOf row)) <;> rfl
  · intro key
    rw [Assoc.get?_insert, numbersOfKey_append seen row key]
    by_cases same : key = keyOf (aggregation.groupOf row)
    · subst same
      rw [if_pos rfl, if_pos rfl, ← numbers_eq, if_neg]
      rw [numbers_eq]
      exact List.append_ne_nil_of_right_ne_nil _ (List.cons_ne_nil _ _)
    · rw [if_neg same, if_neg (Ne.symm same), List.append_nil]
      exact tallied key

theorem mergeAll_ok (takes : ∀ row ∈ below, aggregation.Takes row) (tallied : aggregation.Tallied groups seen) :
    ∃ groups', below.foldlM (fun aggregator row => aggregator.merge row) (aggregation.withGroups groups) =
        .ok (aggregation.withGroups groups') ∧ aggregation.Tallied groups' (seen ++ below) := by
  induction below generalizing groups seen with
  | nil => exact ⟨groups, rfl, by rwa [List.append_nil]⟩
  | cons row below ih =>
    obtain ⟨groups₁, merge_eq, tallied₁⟩ := (takes row List.mem_cons_self).merge_ok tallied
    obtain ⟨groups', rest_eq, tallied'⟩ := ih (fun other mem => takes other (List.mem_cons_of_mem _ mem)) tallied₁
    refine ⟨groups', ?_, by simpa using tallied'⟩
    rw [List.foldlM_cons, merge_eq]
    exact rest_eq

/-! ## Results -/

theorem numbersOfKey_eq (takes : ∀ row ∈ below, aggregation.Takes row) (row_takes : aggregation.Takes row) :
    aggregation.numbersOfKey below (keyOf (aggregation.groupOf row)) =
      aggregation.numbers below (aggregation.groupOf row) := by
  unfold numbersOfKey numbers
  congr 1
  refine List.filter_congr fun other mem => ?_
  rw [decide_eq_decide]
  exact (takes other mem).groupOf_inj row_takes

theorem Suits.resultRow_eq (h : aggregation.Suits input) (typed : row.Typed input) (groups : Assoc String Tally)
    (tally : Tally) :
    (aggregation.withGroups groups).resultRow aggregation.schema (keyOf (aggregation.groupOf row)) tally =
      if IsWord tally.value.toInt then
        .ok ⟨aggregation.schema, aggregation.groupOf row ++ [.int tally.value.toInt32], none⟩
      else .error (.aggregateOverflow tally.value) := by
  have made : Row.ofValues aggregation.schema (aggregation.groupOf row ++ [.int tally.value.toInt32]) =
      .ok ⟨aggregation.schema, aggregation.groupOf row ++ [.int tally.value.toInt32], none⟩ := by
    obtain ⟨types_eq, fit_eq⟩ := h.typed_groupOf typed
    apply Row.ofValues_eq_ok
    · rw [List.map_append, types_eq, h.types_eq]
      rfl
    · rw [List.map_append, fit_eq]
      rfl
  unfold Aggregator.resultRow Aggregator.resultValue withGroups
  by_cases word : IsWord tally.value.toInt
  · have word' := word
    unfold IsWord at word'
    simp only [(h.takes typed).valueOfKey_eq, if_pos word, if_pos word']
    exact made
  · have word' := word
    unfold IsWord at word'
    rw [if_neg word, if_neg word']
    rfl

def groupOfKey (aggregation : Aggregation) (key : String) : List Value :=
  ((⟨aggregation.group, aggregation.groupType⟩ : Grouping).valueOfKey key).toOption.getD []

theorem Takes.groupOfKey_eq (h : aggregation.Takes row) :
    aggregation.groupOfKey (keyOf (aggregation.groupOf row)) = aggregation.groupOf row := by
  rw [groupOfKey, h.valueOfKey_eq]
  rfl

theorem Tallied.of_entry (tallied : aggregation.Tallied groups below) (takes : ∀ row ∈ below, aggregation.Takes row)
    {entry : String × Tally} (mem : entry ∈ groups.entries) :
    ∃ row ∈ below, entry.1 = keyOf (aggregation.groupOf row) ∧
      entry.2 = .of aggregation.aggregate (aggregation.numbers below (aggregation.groupOf row)) := by
  obtain ⟨key, tally⟩ := entry
  have found := (groups.get?_eq_some_iff key tally).mpr mem
  rw [tallied] at found
  split at found
  · cases found
  · next some =>
    cases found
    obtain ⟨row, found⟩ := List.exists_mem_of_ne_nil _ fun none => some (List.map_eq_nil_iff.mpr none)
    obtain ⟨row_mem, key_eq⟩ := List.mem_filter.mp found
    obtain rfl : keyOf (aggregation.groupOf row) = key := of_decide_eq_true key_eq
    exact ⟨row, row_mem, rfl, by rw [numbersOfKey_eq takes (takes row row_mem)]⟩

theorem Tallied.entry_of (tallied : aggregation.Tallied groups below) (takes : ∀ row ∈ below, aggregation.Takes row)
    (mem : row ∈ below) :
    (keyOf (aggregation.groupOf row),
        Tally.of aggregation.aggregate (aggregation.numbers below (aggregation.groupOf row))) ∈
      groups.entries := by
  rw [← groups.get?_eq_some_iff, tallied, numbersOfKey_eq takes (takes row mem), if_neg]
  refine List.ne_nil_of_mem (List.mem_map.mpr ⟨row, List.mem_filter.mpr ⟨mem, ?_⟩, rfl⟩)
  exact decide_eq_true rfl

theorem Tallied.groups_perm (tallied : aggregation.Tallied groups below)
    (takes : ∀ row ∈ below, aggregation.Takes row) :
    (groups.entries.map fun entry => aggregation.groupOfKey entry.1).Perm (below.map aggregation.groupOf).dedup := by
  have nodup : (groups.entries.map fun entry => aggregation.groupOfKey entry.1).Nodup := by
    refine List.Nodup.of_map keyOf ?_
    have keys_eq : (groups.entries.map fun entry => aggregation.groupOfKey entry.1).map keyOf =
        groups.entries.map Prod.fst := by
      rw [List.map_map]
      refine List.map_congr_left fun entry mem => ?_
      obtain ⟨row, row_mem, key_eq, -⟩ := tallied.of_entry takes mem
      rw [Function.comp_apply, key_eq, (takes row row_mem).groupOfKey_eq]
    rw [keys_eq]
    exact groups.nodup
  rw [List.perm_ext_iff_of_nodup nodup (List.nodup_dedup _)]
  intro group
  rw [List.mem_dedup, List.mem_map, List.mem_map]
  constructor
  · rintro ⟨entry, mem, rfl⟩
    obtain ⟨row, row_mem, key_eq, -⟩ := tallied.of_entry takes mem
    exact ⟨row, row_mem, by rw [key_eq, (takes row row_mem).groupOfKey_eq]⟩
  · rintro ⟨row, row_mem, rfl⟩
    exact ⟨_, tallied.entry_of takes row_mem, (takes row row_mem).groupOfKey_eq⟩

theorem Suits.results_cases (h : aggregation.Suits input) (typed : ∀ row ∈ below, row.Typed input)
    (tallied : aggregation.Tallied groups below) :
    (∃ rows, (aggregation.withGroups groups).results aggregation.schema = .ok rows ∧
        aggregation.Summarizes below rows) ∨
      (∃ e, (aggregation.withGroups groups).results aggregation.schema = .error e) ∧ ¬aggregation.InRange below := by
  have takes : ∀ row ∈ below, aggregation.Takes row := fun row mem => h.takes (typed row mem)
  by_cases range : aggregation.InRange below
  · have each : ∀ entry ∈ groups.entries,
        (aggregation.withGroups groups).resultRow aggregation.schema entry.1 entry.2 =
          .ok (aggregation.summary below (aggregation.groupOfKey entry.1)) := by
      intro entry mem
      obtain ⟨row, row_mem, key_eq, tally_eq⟩ := tallied.of_entry takes mem
      rw [key_eq, tally_eq, h.resultRow_eq (typed row row_mem), (takes row row_mem).groupOfKey_eq]
      exact if_pos (range row row_mem)
    refine .inl ⟨_, mapM_eq_ok each, range, ?_⟩
    have perm := (tallied.groups_perm takes).map (aggregation.summary below)
    rwa [List.map_map] at perm
  · refine .inr ⟨?_, range⟩
    simp only [InRange, Classical.not_forall] at range
    obtain ⟨row, row_mem, wide⟩ := range
    have fails : (aggregation.withGroups groups).resultRow aggregation.schema (keyOf (aggregation.groupOf row))
        (.of aggregation.aggregate (aggregation.numbers below (aggregation.groupOf row))) =
        .error (.aggregateOverflow (aggregation.resultOf below (aggregation.groupOf row))) := by
      rw [h.resultRow_eq (typed row row_mem)]
      exact if_neg wide
    exact mapM_eq_error (tallied.entry_of takes row_mem) fails

end Aggregation

end RowStore
