import RowStore.Query.Operator

/-!
# A demonstration

Stores a table of salaries on an empty disk, asks it two questions, removes some of its rows, and tells what came of
each step.
-/

namespace RowStore.Demo

/-! ## The data -/

def path : String := "demo.dat"

def schema : Schema := (Schema.empty.addNamed "dept" .string).addNamed "salary" .int

def values : List (List Value) :=
  [[.string "eng", .int 120], [.string "eng", .int 100], [.string "ops", .int 80],
    [.string "sales", .int 90], [.string "ops", .int 70]]

def config : Config := { Config.standard with poolPages := 4 }

def txn : TxnId := ⟨1⟩

/-! ## The steps -/

/-- Opens an operator, and gives all its rows. -/
def rowsOf (operator : Operator) : Action (List Row) := fun store =>
  let opened := operator.openAll store
  match opened.outcome with
  | .error failure => .error failure opened.store
  | .ok () =>
    let drained := opened.operator.drain opened.store
    match drained.outcome with
    | .error failure => .error failure drained.store
    | .ok rows => .ok rows drained.store

/-- The first row of an operator that gives a number of rows, as text. -/
def countOf (operator : Operator) : Action String := do
  let rows ← rowsOf operator
  return "".intercalate (rows.map Row.text)

/-- The columns of an operator, and below them its rows. -/
def tableOf (operator : Operator) : Action (List String) := do
  let rows ← rowsOf operator
  return operator.schema.text :: rows.map fun row => "  " ++ row.text

def report : Action (List String) := do
  let file ← TableFile.openAt path schema config.pageSize
  Store.register file "employees" ""
  let pool ← Store.addPool config
  let capacity ← pool.capacity
  let rows ← values.mapM fun vs => Action.check (Row.ofValues schema vs)
  let stored ← countOf (← (Operator.ofRows schema rows).insertedInto pool txn file.id)
  let pages ← file.pageCount
  let wellPaid := (← Operator.ofTable pool file.id (some "e")).filtered (.constant 1 .gt (.int 85))
  let wellPaidRows ← tableOf wellPaid
  let average ← Action.check ((← Operator.ofTable pool file.id none).aggregated 1 (some 0) .avg)
  let averageRows ← tableOf average
  let ops := (← Operator.ofTable pool file.id none).filtered (.constant 0 .eq (.string "ops"))
  let removed ← countOf (ops.deleted pool txn)
  pool.flushAll
  return [
    s!"Opened heap file {path} as table {file.id.text TableId.digits}",
    s!"Created buffer pool with {capacity} pages",
    "",
    s!"Inserted {stored} tuples into {pages.toNat} page(s)",
    ""] ++ wellPaidRows ++ [""] ++ averageRows ++ [
    "",
    s!"Deleted {removed} tuples",
    "Flushed all pages to disk"]

def complaint : Failure → String
  | .refused error => error.message TableId.digits
  | .aborted _ => "An internal bound was overrun"

end RowStore.Demo

def main : IO UInt32 := do
  match RowStore.Demo.report default with
  | .ok lines _ =>
    for line in lines do IO.println line
    return 0
  | .error failure _ =>
    IO.eprintln (RowStore.Demo.complaint failure)
    return 1
