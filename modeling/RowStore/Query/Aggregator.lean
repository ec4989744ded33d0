import RowStore.Assoc
import RowStore.Row

/-!
# Aggregates

Rows are taken in one after another and counted or added up in groups. A group is known by the text of its grouping
value, and gives one row at the end. Without a grouping column all rows are one group.
-/

namespace RowStore

inductive Aggregate where
  | count
  | sum
  /-- The sum divided by the count, rounded toward zero. -/
  | avg
  | min
  | max
  deriving DecidableEq

def Aggregate.text : Aggregate → String
  | .count => "count"
  | .sum => "sum"
  | .avg => "avg"
  | .min => "min"
  | .max => "max"

/-! ## Groups -/

/-- The column that tells the groups apart, and its type. Rows are grouped only where both are given. -/
structure Grouping where
  column : Option Nat
  type : Option ColumnType
  deriving DecidableEq

namespace Grouping

/-- The key of the one group of rows that are not grouped. -/
def commonKey : String := "NO_GROUPING_KEY"

def key (grouping : Grouping) (row : Row) : Except StoreError String :=
  match grouping.column, grouping.type with
  | some column, some type => do
    let v ← row.value column
    if v.type = type then return v.text else throw (Value.mismatch type v.type)
  | _, _ => .ok commonKey

/-- The grouping value of a key, read back from its text. There is none where rows are not grouped. -/
def valueOfKey (grouping : Grouping) (key : String) : Except StoreError (List Value) :=
  match grouping.column, grouping.type with
  | some _, some type => (type.parse key).map fun v => [v]
  | _, _ => .ok []

end Grouping

/-- What is known of a group: the number and the sum of its values, and the aggregate of them so far. -/
structure Tally where
  value : Int64
  sum : Int64
  count : Int64
  deriving DecidableEq

namespace Tally

def empty : Tally := ⟨0, 0, 0⟩

/-- Takes in a value, the `first` of its group or a further one. -/
def add (tally : Tally) (aggregate : Aggregate) (first : Bool) (v : Int64) : Tally :=
  let count := tally.count + 1
  let sum := tally.sum + v
  let value := match aggregate with
    | .count => count
    | .sum => sum
    | .avg => sum / count
    | .min => if first then v else if v < tally.value then v else tally.value
    | .max => if first then v else if tally.value < v then v else tally.value
  ⟨value, sum, count⟩

end Tally

/-! ## Taking in rows -/

/-- An aggregate of one column, over the rows taken in so far. -/
structure Aggregator where
  type : ColumnType
  column : Nat
  aggregate : Aggregate
  grouping : Grouping
  groups : Assoc String Tally

namespace Aggregator

def ofInts (grouping : Grouping) (column : Nat) (aggregate : Aggregate) : Aggregator :=
  ⟨.int, column, aggregate, grouping, .empty⟩

/-- An aggregate of texts. They can only be counted. -/
def ofStrings (grouping : Grouping) (column : Nat) (aggregate : Aggregate) : Except StoreError Aggregator :=
  if aggregate = .count then .ok ⟨.string, column, aggregate, grouping, .empty⟩
  else .error (.aggregateUnsupported aggregate.text ColumnType.string.text)

def ofType (type : ColumnType) (grouping : Grouping) (column : Nat) (aggregate : Aggregate) :
    Except StoreError Aggregator :=
  match type with
  | .int => .ok (ofInts grouping column aggregate)
  | .string => ofStrings grouping column aggregate

/-- The number that a row adds to its group. A text adds none. -/
def amount (aggregator : Aggregator) (row : Row) : Except StoreError Int64 := do
  let v ← row.value aggregator.column
  match aggregator.type with
  | .int => return (← v.asInt).toInt64
  | .string => if v.type = .string then return 0 else throw (Value.mismatch .string v.type)

/-- Takes in a row. Its group is found before its value. -/
def merge (aggregator : Aggregator) (row : Row) : Except StoreError Aggregator := do
  let key ← aggregator.grouping.key row
  let v ← aggregator.amount row
  let tally := match aggregator.groups.get? key with
    | some tally => tally.add aggregator.aggregate false v
    | none => Tally.empty.add aggregator.aggregate true v
  return { aggregator with groups := aggregator.groups.insert key tally }

/-! ## Results -/

/-- The integer of a result, if it fits an integer column. -/
def resultValue (v : Int64) : Except StoreError Value :=
  if -0x80000000 ≤ v.toInt ∧ v.toInt < 0x80000000 then .ok (.int v.toInt32)
  else .error (.aggregateOverflow v)

/-- The row of one group: its grouping value, if rows are grouped, and its result. -/
def resultRow (aggregator : Aggregator) (schema : Schema) (key : String) (tally : Tally) :
    Except StoreError Row := do
  let result ← resultValue tally.value
  let group ← aggregator.grouping.valueOfKey key
  Row.ofValues schema (group ++ [result])

/-- The rows of all groups. They come in the order in which the groups came up, though any order would do. -/
def results (aggregator : Aggregator) (schema : Schema) : Except StoreError (List Row) :=
  aggregator.groups.entries.mapM fun (key, tally) => aggregator.resultRow schema key tally

end Aggregator

end RowStore
