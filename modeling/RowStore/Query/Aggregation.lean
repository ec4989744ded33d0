import RowStore.Query.Aggregator

/-!
# Aggregations of a query

An aggregation names the column to compute, the column to group by, and the columns of its result.
-/

namespace RowStore

/-- An aggregation over rows of a known schema. The result has the grouping column, if there is one, and an integer
column named for the aggregate. -/
structure Aggregation where
  column : Nat
  columnType : ColumnType
  group : Option Nat
  groupType : Option ColumnType
  aggregate : Aggregate
  schema : Schema
  deriving DecidableEq

namespace Aggregation

def resultName (aggregate : Aggregate) (name : Option String) : String :=
  let column := name.getD ""
  s!"{aggregate.text}({column})"

/-- An aggregation over rows of schema `input`. Only integers can be more than counted. -/
def plan (input : Schema) (column : Nat) (group : Option Nat) (aggregate : Aggregate) :
    Except StoreError Aggregation := do
  let target ← input.column column
  let groupColumn ← match group with
    | some index => (input.column index).map some
    | none => .ok none
  if target.type = .string ∧ aggregate ≠ .count then
    throw (.aggregateUnsupported aggregate.text target.type.text)
  let result : Column := ⟨.int, some (resultName aggregate target.name)⟩
  return {
    column, group, aggregate
    columnType := target.type
    groupType := groupColumn.map Column.type
    schema := ⟨groupColumn.toList ++ [result]⟩ }

/-- The aggregate before any row was taken in. -/
def start (aggregation : Aggregation) : Except StoreError Aggregator :=
  Aggregator.ofType aggregation.columnType ⟨aggregation.group, aggregation.groupType⟩ aggregation.column
    aggregation.aggregate

/-- The name of the grouping column, if there is one with a name. -/
def groupName (aggregation : Aggregation) : Option String :=
  match aggregation.group with
  | some _ => aggregation.schema.columns.head?.bind Column.name
  | none => none

def columnName (aggregation : Aggregation) : Option String :=
  aggregation.schema.columns.getLast?.bind Column.name

end Aggregation

end RowStore
