import RowStore.Store.Pages

/-!
# Storing and removing rows

A row is stored on the first page with a slot to spare, and on a new page where there is none. It is removed from the
page that it names.
-/

namespace RowStore

namespace TableFile

variable (file : TableFile) (pool : PoolId) (txn : TxnId)

/-! ## Storing -/

/-- Stores a row on one page. There is no result where the page is full. -/
def insertOn (id : PageId) (row : Row) : Action (Option Row) :=
  pool.mutate id fun page =>
    match page.insert row with
    | .ok (page, id) => .ok (page.markDirty (some txn), some (row.withId (some id)))
    | .error (.pageFull _) => .ok (page, none)
    | .error e => .error (.refused e)

/-- Stores a row on the first of `left` pages with a slot to spare, starting with page `number`. -/
def insertAmong (row : Row) : Nat → UInt32 → Action (Option Row)
  | 0, _ => return none
  | left + 1, number => do
    match ← insertOn pool txn (file.pageId number) row with
    | some stored => return some stored
    | none => insertAmong row left (number + 1)

/-- Adds pages until one takes the row. There are `left` page numbers to try. -/
def insertAppending (row : Row) : Nat → Action Row
  | 0 => Action.fail (.aborted .pageNumbersExhausted)
  | left + 1 => do
    let number ← file.appendPage
    match ← insertOn pool txn (file.pageId number) row with
    | some stored => return stored
    | none => insertAppending row left

/-- Stores a row of the file's schema. The result knows its place. -/
def insert (row : Row) : Action Row := do
  if row.schema ≠ file.schema then Action.fail (.refused (Schema.mismatch file.schema row.schema))
  match ← file.insertAmong pool txn row (← file.pageCount).toNat 0 with
  | some stored => return stored
  | none => file.insertAppending pool txn row UInt32.size

/-! ## Removing -/

/-- Removes a row from the page that it names, and tells which page that is. -/
def delete (row : Row) : Action PageId := do
  match row.id with
  | none => Action.fail (.refused .rowNotStored)
  | some id =>
    if id.page.table ≠ file.id then Action.fail (.refused (.rowNotOnPage id.page))
    if (← file.pageCount) ≤ id.page.number then Action.fail (.refused (.pageOutOfRange id.page))
    pool.mutate id.page fun page =>
      match page.delete row with
      | .ok page => .ok (page.markDirty (some txn), ())
      | .error e => .error (.refused e)
    return id.page

end TableFile

namespace PoolId

/-- Stores a row in a table. The result knows its place. -/
def insert (pool : PoolId) (txn : TxnId) (table : TableId) (row : Row) : Action Row := do
  let file ← Store.lookUp fun catalog => catalog.file table
  file.insert pool txn row

/-- Removes a row from the table that it names. -/
def delete (pool : PoolId) (txn : TxnId) (row : Row) : Action Unit := do
  match row.id with
  | none => Action.fail (.refused .rowNotStored)
  | some id =>
    let file ← Store.lookUp fun catalog => catalog.file id.page.table
    discard (file.delete pool txn row)

end PoolId

end RowStore
