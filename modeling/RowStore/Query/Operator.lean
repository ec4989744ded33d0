import RowStore.Query.Aggregation
import RowStore.Query.Predicate
import RowStore.Query.RowBuffer
import RowStore.Query.TableScan

/-!
# Operators

A query is a tree of operators that give rows on demand. A scan reads its table as it goes. Every other operator works
when it is opened, and then gives rows from a buffer. Operators that change tables work only once, and give the number
of rows that they changed each time they are opened.
-/

namespace RowStore

/-- An operator. `done` is the number of rows changed, once the change has been carried out; `out` are the rows to
give. -/
inductive Operator where
  | values (out : RowBuffer)
  | scan (scan : TableScan)
  | filter (predicate : Predicate) (child : Operator) (out : RowBuffer)
  | aggregate (aggregation : Aggregation) (child : Operator) (out : RowBuffer)
  | insert (pool : PoolId) (txn : TxnId) (table : TableId) (done : Option Int32) (child : Operator)
    (out : RowBuffer)
  | delete (pool : PoolId) (txn : TxnId) (done : Option Int32) (child : Operator) (out : RowBuffer)

/-- What came of a call: its outcome, and what it left of the operator and of the store. -/
structure Run (α : Type) where
  outcome : Except Failure α
  operator : Operator
  store : Store

namespace Operator

/-! ## Building queries -/

def countSchema : Schema := .ofTypes [.int]

/-- The row that gives a number of rows. -/
def countRow (n : Int32) : Row := ⟨countSchema, [.int n], none⟩

def schema : Operator → Schema
  | .values out => out.schema
  | .scan source => source.schema
  | .filter _ child _ => child.schema
  | .aggregate aggregation _ _ => aggregation.schema
  | .insert .. => countSchema
  | .delete .. => countSchema

def ofRows (schema : Schema) (rows : List Row) : Operator := .values (.ofRows schema rows)

instance : Inhabited Operator := ⟨ofRows .empty []⟩

/-- Gives the rows of a table, with the columns named below a qualifier if there is one. -/
def ofTable (pool : PoolId) (table : TableId) (qualifier : Option String) : Action Operator := do
  return .scan (← TableScan.plan pool table qualifier)

/-- Gives the rows that satisfy a predicate. -/
def filtered (child : Operator) (predicate : Predicate) : Operator :=
  .filter predicate child (.ofRows child.schema [])

/-- Gives an aggregate of the rows, or of each group of them. -/
def aggregated (child : Operator) (column : Nat) (group : Option Nat) (aggregate : Aggregate) :
    Except StoreError Operator := do
  let aggregation ← Aggregation.plan child.schema column group aggregate
  return .aggregate aggregation child (.ofRows aggregation.schema [])

/-- Stores the rows in a table of the same schema. -/
def insertedInto (child : Operator) (pool : PoolId) (txn : TxnId) (table : TableId) : Action Operator := do
  let target ← Store.lookUp fun catalog => catalog.schema table
  if child.schema ≠ target then Action.fail (.refused (Schema.mismatch target child.schema))
  return .insert pool txn table none child (.ofRows countSchema [])

/-- Removes the rows from the tables that they name. -/
def deleted (child : Operator) (pool : PoolId) (txn : TxnId) : Operator :=
  .delete pool txn none child (.ofRows countSchema [])

/-! ## Rows of an operator that was just opened -/

variable {σ : Type}

/-- Gives every row that is left to `step`. -/
def feed (operator : Operator) (step : σ → Row → Action σ) (acc : σ) : Action σ :=
  match operator with
  | .scan source => fun store =>
    match TableCursor.feed (fun acc row => step acc (source.present row)) acc (source.cursor, store) with
    | .ok acc (_, store) => .ok acc store
    | .error failure (_, store) => .error failure store
  | .values out | .filter _ _ out | .aggregate _ _ out | .insert _ _ _ _ _ out | .delete _ _ _ _ out =>
    if out.isOpen then out.rest.foldlM step acc else Action.fail (.refused .notOpen)

end Operator

namespace Run

variable {α β σ : Type}

/-- Gives the rows of an operator to `step`, if opening it succeeded. -/
def feed (run : Run Unit) (step : σ → Row → Action σ) (acc : σ) : Run σ :=
  match run.outcome with
  | .error failure => ⟨.error failure, run.operator, run.store⟩
  | .ok () =>
    match run.operator.feed step acc run.store with
    | .ok acc store => ⟨.ok acc, run.operator, store⟩
    | .error failure store => ⟨.error failure, run.operator, store⟩

/-- Goes on from a result without the store. -/
def check (run : Run α) (next : α → Except StoreError β) : Run β :=
  ⟨run.outcome.bind fun a => Failure.ofCheck (next a), run.operator, run.store⟩

/-- Makes the rows found the output of the operator above. Where there was a failure its output stays. -/
def collect (run : Run (Array Row)) (schema : Schema) (parent : Operator → RowBuffer → Operator)
    (out : RowBuffer) : Run Unit :=
  match run.outcome with
  | .ok rows => ⟨.ok (), parent run.operator (RowBuffer.ofRows schema rows.toList).opened, run.store⟩
  | .error failure => ⟨.error failure, parent run.operator out, run.store⟩

/-- Makes the number of rows changed the output of the operator above, and keeps it. Where there was a failure the
change counts as not carried out. -/
def collectCount (run : Run Int32) (parent : Option Int32 → Operator → RowBuffer → Operator)
    (out : RowBuffer) : Run Unit :=
  match run.outcome with
  | .ok n =>
    ⟨.ok (), parent (some n) run.operator (RowBuffer.ofRows Operator.countSchema [Operator.countRow n]).opened,
      run.store⟩
  | .error failure => ⟨.error failure, parent none run.operator out, run.store⟩

end Run

namespace Operator

/-! ## Opening and closing -/

def keep (predicate : Predicate) (rows : Array Row) (row : Row) : Action (Array Row) := do
  if ← Action.check (predicate.holds row) then return rows.push row else return rows

def countOn (n : Int32) : Action Int32 :=
  if n = Int32.maxValue then Action.fail (.aborted .wordOverflow) else return n + 1

def store (pool : PoolId) (txn : TxnId) (table : TableId) (n : Int32) (row : Row) : Action Int32 := do
  discard (pool.insert txn table row)
  countOn n

def remove (pool : PoolId) (txn : TxnId) (n : Int32) (row : Row) : Action Int32 := do
  pool.delete txn row
  countOn n

/-- Opens an operator after those below it. Operators with a buffer do their work here. -/
def openAll : Operator → Store → Run Unit
  | .values out, store => ⟨.ok (), .values out.opened, store⟩
  | .scan source, store => ⟨.ok (), .scan { source with cursor := source.cursor.opened }, store⟩
  | .filter predicate child out, store =>
    let run := (child.openAll store).feed (keep predicate) #[]
    run.collect run.operator.schema (.filter predicate) out
  | .aggregate aggregation child out, store =>
    match aggregation.start with
    | .error e => ⟨.error (.refused e), .aggregate aggregation child out, store⟩
    | .ok aggregator =>
      let run := (child.openAll store).feed (fun agg row => Action.check (agg.merge row)) aggregator
      let rows := run.check fun agg => (agg.results aggregation.schema).map List.toArray
      rows.collect aggregation.schema (.aggregate aggregation) out
  | .insert pool txn table done child out, store =>
    let run : Run Int32 := match done with
      | some n => ⟨.ok n, child, store⟩
      | none => (child.openAll store).feed (Operator.store pool txn table) 0
    run.collectCount (.insert pool txn table) out
  | .delete pool txn done child out, store =>
    let run : Run Int32 := match done with
      | some n => ⟨.ok n, child, store⟩
      | none => (child.openAll store).feed (Operator.remove pool txn) 0
    run.collectCount (.delete pool txn) out

/-- Closes an operator and those below it. -/
def closeAll : Operator → Operator
  | .values out => .values out.closed
  | .scan source => .scan { source with cursor := source.cursor.closed }
  | .filter predicate child out => .filter predicate child.closeAll out.closed
  | .aggregate aggregation child out => .aggregate aggregation child.closeAll out.closed
  | .insert pool txn table done child out => .insert pool txn table done child.closeAll out.closed
  | .delete pool txn done child out => .delete pool txn done child.closeAll out.closed

/-! ## Reading rows -/

variable {α : Type}

def callScan (source : TableScan) (action : CursorAction α) (store : Store) : Run α :=
  match action (source.cursor, store) with
  | .ok a (cursor, store) => ⟨.ok a, .scan { source with cursor }, store⟩
  | .error failure (cursor, store) => ⟨.error failure, .scan { source with cursor }, store⟩

def callBuffer (parent : RowBuffer → Operator) (out : RowBuffer)
    (action : RowBuffer → Except StoreError (α × RowBuffer)) (store : Store) : Run α :=
  match action out with
  | .ok (a, out) => ⟨.ok a, parent out, store⟩
  | .error e => ⟨.error (.refused e), parent out, store⟩

/-- Calls the cursor of a scan, or the buffer of any other operator. -/
def call (onScan : TableScan → CursorAction α)
    (onBuffer : RowBuffer → Except StoreError (α × RowBuffer)) : Operator → Store → Run α
  | .scan source => callScan source (onScan source)
  | .values out => callBuffer .values out onBuffer
  | .filter predicate child out => callBuffer (.filter predicate child) out onBuffer
  | .aggregate aggregation child out => callBuffer (.aggregate aggregation child) out onBuffer
  | .insert pool txn table done child out => callBuffer (.insert pool txn table done child) out onBuffer
  | .delete pool txn done child out => callBuffer (.delete pool txn done child) out onBuffer

def hasNext : Operator → Store → Run Bool :=
  call (fun _ => TableCursor.hasNext) fun out => out.hasNext.map (·, out)

/-- The next row, or none after the last. -/
def next : Operator → Store → Run (Option Row) :=
  call (fun source => return (← TableCursor.next).map source.present) RowBuffer.next

/-- Starts again from the first row. A scan that is not open is opened by this; any other operator refuses. -/
def rewind : Operator → Store → Run Unit :=
  call (fun _ => TableCursor.change TableCursor.rewound) fun out => out.rewind.map ((), ·)

def drain : Operator → Store → Run (List Row) :=
  call (fun source => return (← TableCursor.drain).map source.present) RowBuffer.drain

end Operator

end RowStore
