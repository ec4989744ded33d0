import RowStore.Store.Cursor

/-!
# Plain tables

A table as the list of its pages, and a page as the list of its slots, each empty or with a row. Every call of a pool is
restated on such tables, where nothing is read, kept or written.
-/

namespace RowStore

/-! ## Calls of a pool -/

/-- A call of a pool. -/
inductive PoolCall where
  | insert (txn : TxnId) (table : TableId) (row : Row)
  | delete (txn : TxnId) (row : Row)
  | get (id : PageId)
  | flushPage (id : PageId)
  | flushAll
  | flushTxn (txn : TxnId)
  | evict
  | scan (table : TableId)

inductive PoolAnswer where
  | stored (row : Row)
  | rows (rows : List Row)
  | done
  deriving DecidableEq

namespace PoolId

/-- Every row of a registered table, from a cursor of its own. -/
def scan (pool : PoolId) (table : TableId) : Action (List Row) := do
  let file ← Store.lookUp fun catalog => catalog.file table
  fun store =>
    match TableCursor.drain ((TableCursor.new file pool).opened, store) with
    | .ok rows (_, store) => .ok rows store
    | .error failure (_, store) => .error failure store

def get (pool : PoolId) (id : PageId) : Action (List Row) := do
  return (← (← pool.fetch id).page).rows

def perform (pool : PoolId) : PoolCall → Action PoolAnswer
  | .insert txn table row => return .stored (← pool.insert txn table row)
  | .delete txn row => do pool.delete txn row; return .done
  | .get id => return .rows (← pool.get id)
  | .flushPage id => do discard (pool.flushPage id); return .done
  | .flushAll => do pool.flushAll; return .done
  | .flushTxn txn => do pool.flushTxn txn; return .done
  | .evict => do discard pool.evict; return .done
  | .scan table => return .rows (← pool.scan table)

def run (pool : PoolId) : List PoolCall → Store → List (Except Failure PoolAnswer) × Store
  | [], store => ([], store)
  | call :: calls, store =>
    match pool.perform call store with
    | .ok answer store => (pool.run calls store).map (.ok answer :: ·) id
    | .error failure store => (pool.run calls store).map (.error failure :: ·) id

end PoolId

/-! ## Tables -/

/-- A page by slot. -/
abbrev PlainPage := List (Option Row)

/-- A table by page. -/
abbrev PlainTable := List PlainPage

namespace PlainPage

def free? (page : PlainPage) : Option Nat := page.findIdx? Option.isNone

def rows (page : PlainPage) : List Row := page.filterMap fun row => row

end PlainPage

namespace TableFile

def slots (file : TableFile) : Nat := Layout.slotCount file.pageSize file.schema.width

def rowId (file : TableFile) (number slot : Nat) : RowId := ⟨file.pageId (UInt32.ofNat number), UInt16.ofNat slot⟩

def blankPage (file : TableFile) : PlainPage := List.replicate file.slots none

/-- Why there is no page with a number past the last: it is out of range, unless its range does not fit 64 bits. -/
def missing (file : TableFile) (number : UInt32) : Failure :=
  match file.pageRange number with
  | .error cause => .aborted cause
  | .ok _ => .refused (.pageOutOfRange (file.pageId number))

def among (files : List TableFile) (table : TableId) : Except StoreError TableFile :=
  match files.find? fun file => file.id = table with
  | some file => .ok file
  | none => .error (.tableNotFound table)

end TableFile

namespace PlainTable

/-- The lowest page with an empty slot, and the lowest such slot. -/
def free? : PlainTable → Option (Nat × Nat)
  | [] => none
  | page :: pages =>
    match PlainPage.free? page with
    | some slot => some (0, slot)
    | none => (free? pages).map fun (number, slot) => (number + 1, slot)

/-- The table with an empty slot, and where that slot is. A page is added only where every page is full. -/
def makeRoom (file : TableFile) (table : PlainTable) : PlainTable × Nat × Nat :=
  match table.free? with
  | some place => (table, place)
  | none => (table ++ [file.blankPage], table.length, 0)

/-- Puts a row, or nothing, into a slot. -/
def put (table : PlainTable) (number slot : Nat) (row : Option Row) : PlainTable :=
  table.modify number fun page => page.set slot row

/-- The rows in the order of their places. -/
def rows (table : PlainTable) : List Row := table.flatMap PlainPage.rows

end PlainTable

/-- The tables by number. -/
abbrev Contents := TableId → PlainTable

namespace Contents

def page? (contents : Contents) (id : PageId) : Option PlainPage := (contents id.table)[id.number.toNat]?

def setTable (contents : Contents) (table : TableId) (pages : PlainTable) : Contents :=
  fun other => if other = table then pages else contents other

/-! ## The calls on plain tables -/

variable (files : List TableFile) (contents : Contents)

/-- Stores a row in the lowest empty slot. The result knows its place. -/
def insert (table : TableId) (row : Row) : Contents × Except Failure Row :=
  match TableFile.among files table with
  | .error e => (contents, .error (.refused e))
  | .ok file =>
    if row.schema ≠ file.schema then (contents, .error (.refused (Schema.mismatch file.schema row.schema)))
    else
      let (pages, number, slot) := (contents table).makeRoom file
      let stored := row.withId (some (file.rowId number slot))
      (contents.setTable table (pages.put number slot (some stored)), .ok stored)

/-- Empties the slot that a row names. -/
def delete (row : Row) : Contents × Except Failure Unit :=
  match row.id with
  | none => (contents, .error (.refused .rowNotStored))
  | some ⟨page, slot⟩ =>
    match TableFile.among files page.table with
    | .error e => (contents, .error (.refused e))
    | .ok _ =>
      match contents.page? page with
      | none => (contents, .error (.refused (.pageOutOfRange page)))
      | some slots =>
        match slots[slot.toNat]? with
        | none => (contents, .error (.refused (.rowNotOnPage page)))
        | some none => (contents, .error (.refused (.slotEmpty page slot)))
        | some (some _) =>
          (contents.setTable page.table ((contents page.table).put page.number.toNat slot.toNat none), .ok ())

def get (page : PageId) : Except Failure (List Row) :=
  match TableFile.among files page.table with
  | .error e => .error (.refused e)
  | .ok file =>
    match contents.page? page with
    | some slots => .ok slots.rows
    | none => .error (file.missing page.number)

def scan (table : TableId) : Except Failure (List Row) :=
  match TableFile.among files table with
  | .error e => .error (.refused e)
  | .ok _ => .ok (contents table).rows

/-- Carries out a call. Nothing has to be written, and nothing has to be given up. -/
def perform : PoolCall → Contents × Except Failure PoolAnswer
  | .insert _ table row => (contents.insert files table row).map id fun outcome => outcome.map .stored
  | .delete _ row => (contents.delete files row).map id fun outcome => outcome.map fun _ => .done
  | .get page => (contents, (contents.get files page).map .rows)
  | .flushPage _ | .flushAll | .flushTxn _ | .evict => (contents, .ok .done)
  | .scan table => (contents, (contents.scan files table).map .rows)

def run (contents : Contents) : List PoolCall → List (Except Failure PoolAnswer) × Contents
  | [] => ([], contents)
  | call :: calls =>
    let (contents, outcome) := contents.perform files call
    (contents.run calls).map (outcome :: ·) id

end Contents

end RowStore
