/-!
# Where rows live

A table is known by a number, a page by its table and its place in the table's file, a row by its page and slot.
-/

namespace RowStore

/-- The number of a table, the same for the same file in every run. -/
structure TableId where
  number : UInt32
  deriving DecidableEq

/-- A page: the table it belongs to, and its place in the file, counted from zero. -/
structure PageId where
  table : TableId
  number : UInt32
  deriving DecidableEq

/-- A row's place: its page and the slot on that page. -/
structure RowId where
  page : PageId
  slot : UInt16
  deriving DecidableEq

/-- The number of a transaction, kept on the pages that it changes. -/
structure TxnId where
  number : UInt64
  deriving DecidableEq

namespace TableId

def digits (id : TableId) : String := toString id.number.toNat

/-- How a table is shown, its number written as `nameOf` says. -/
def text (id : TableId) (nameOf : TableId → String) : String := s!"TableId({nameOf id})"

end TableId

namespace PageId

def text (id : PageId) (nameOf : TableId → String) : String :=
  s!"PageId({nameOf id.table}, {id.number.toNat})"

end PageId

def TxnId.text (id : TxnId) : String := s!"Txn({id.number.toNat})"

end RowStore
