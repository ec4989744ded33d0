import RowStore.Store.Cursor

/-!
# Table scans

A scan gives every row of a registered table in the order of their places, with the columns named below a qualifier if
it has one.
-/

namespace RowStore

/-- A scan of a table. With a qualifier, the rows that it gives have its schema in place of the table's. -/
structure TableScan where
  table : TableId
  tableName : String
  qualifier : Option String
  schema : Schema
  cursor : TableCursor
  deriving DecidableEq

namespace TableScan

/-- A scan of a table that is registered now. -/
def plan (pool : PoolId) (table : TableId) (qualifier : Option String) : Action TableScan := do
  let file ← Store.lookUp fun catalog => catalog.file table
  let tableName ← Store.lookUp fun catalog => catalog.tableName table
  let schema := match qualifier with
    | some qualifier => file.schema.qualify qualifier
    | none => file.schema
  return ⟨table, tableName, qualifier, schema, .new file pool⟩

def present (scan : TableScan) (row : Row) : Row :=
  if scan.qualifier.isSome then row.withSchema scan.schema else row

end TableScan

end RowStore
