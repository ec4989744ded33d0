import RowStore.Store.Rows

/-!
# Cursors over tables

A cursor gives the rows of a table file in the order of their places. It copies the rows of a page when it reaches that
page, and looks for the end of the file each time it needs another page.
-/

namespace RowStore

/-- A cursor. `current` are the rows left of the page before `nextPage`, and `peeked` is a row that was looked at and
not yet given. -/
structure TableCursor where
  file : TableFile
  pool : PoolId
  nextPage : UInt32
  current : List Row
  peeked : Option Row
  isOpen : Bool
  deriving DecidableEq

/-- A change of a cursor and of the store that has a result or fails. -/
abbrev CursorAction := EStateM Failure (TableCursor × Store)

namespace TableCursor

def new (file : TableFile) (pool : PoolId) : TableCursor := ⟨file, pool, 0, [], none, false⟩

/-! ## Opening and closing -/

def opened (cursor : TableCursor) : TableCursor :=
  { cursor with nextPage := 0, current := [], peeked := none, isOpen := true }

def closed (cursor : TableCursor) : TableCursor :=
  { cursor with current := [], peeked := none, isOpen := false }

/-- Starts again, whether the cursor was open or not. -/
def rewound (cursor : TableCursor) : TableCursor := cursor.closed.opened

/-- The number of pages that can still follow. -/
def pagesLeft (cursor : TableCursor) : Nat := UInt32.size - cursor.nextPage.toNat

/-! ## Steps of a cursor -/

variable {α σ : Type}

/-- An action that leaves the cursor alone. -/
def onStore (action : Action α) : CursorAction α := fun (cursor, store) =>
  match action store with
  | .ok a store => .ok a (cursor, store)
  | .error failure store => .error failure (cursor, store)

def read : CursorAction TableCursor := return (← get).1

def change (f : TableCursor → TableCursor) : CursorAction Unit :=
  modify fun (cursor, store) => (f cursor, store)

/-- Refuses unless the cursor is open. -/
def requireOpen : CursorAction Unit := do
  if !(← read).isOpen then throw (.refused .notOpen)

/-- Takes the next row of the current page. -/
def takeRow : CursorAction (Option Row) := do
  match (← read).current with
  | row :: rest =>
    change fun cursor => { cursor with current := rest }
    return some row
  | [] => return none

/-- Whether the file has no further page. -/
def atEnd : CursorAction Bool := do
  let cursor ← read
  return (← onStore cursor.file.pageCount) ≤ cursor.nextPage

/-- Copies the rows of the next page. -/
def loadPage : CursorAction Unit := do
  let cursor ← read
  let frame ← onStore (cursor.pool.fetch (cursor.file.pageId cursor.nextPage))
  let page ← onStore frame.page
  change fun cursor => { cursor with current := page.rows, nextPage := cursor.nextPage + 1 }

/-- The next row, from this page or one of the `left` that can follow. Pages without rows are passed over. -/
def advance : Nat → CursorAction (Option Row)
  | 0 => takeRow
  | left + 1 => do
    match ← takeRow with
    | some row => return some row
    | none =>
      if ← atEnd then return none
      loadPage
      advance left

/-- The row that comes next when none was looked at. -/
def fetchRow : CursorAction (Option Row) := do
  advance (← read).pagesLeft

/-! ## The calls -/

/-- Whether there is another row. The row is kept for `next`. -/
def hasNext : CursorAction Bool := do
  requireOpen
  if (← read).peeked.isNone then
    let row ← fetchRow
    change fun cursor => { cursor with peeked := row }
  return (← read).peeked.isSome

/-- The next row, or none after the last. -/
def next : CursorAction (Option Row) := do
  requireOpen
  match (← read).peeked with
  | some row =>
    change fun cursor => { cursor with peeked := none }
    return some row
  | none => fetchRow

/-! ## All rows that are left -/

def feedRows (step : σ → Row → Action σ) : List Row → σ → CursorAction σ
  | [], acc => return acc
  | row :: rest, acc => do
    change fun cursor => { cursor with current := rest }
    let acc ← onStore (step acc row)
    feedRows step rest acc

def feedPages (step : σ → Row → Action σ) : Nat → σ → CursorAction σ
  | 0, acc => return acc
  | left + 1, acc => do
    if ← atEnd then return acc
    loadPage
    let acc ← feedRows step (← read).current acc
    feedPages step left acc

/-- Gives every row that is left to `step`. A page is reached when the rows before it have been given. -/
def feed (step : σ → Row → Action σ) (acc : σ) : CursorAction σ := do
  requireOpen
  let cursor ← read
  change fun cursor => { cursor with peeked := none }
  let acc ← feedRows step (cursor.peeked.toList ++ cursor.current) acc
  feedPages step cursor.pagesLeft acc

def drain : CursorAction (List Row) := do
  let rows ← feed (fun rows row => return rows.push row) (#[] : Array Row)
  return rows.toList

end TableCursor

end RowStore
