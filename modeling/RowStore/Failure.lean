import RowStore.Location

/-!
# Failures

A request is refused with a `StoreError`, which has a wording of its own. An `Abort` is a request that the store cannot
carry out at all because an internal bound was overrun. Both leave behind whatever was done before them.
-/

namespace RowStore

/-- The reasons for which the store refuses a request. -/
inductive StoreError where
  /-- The file system refused. -/
  | fileSystem
  | schemaMismatch (expected found : String)
  | typeMismatch (expected found : String)
  | columnOutOfRange (index arity : Nat)
  | columnNotFound (name : String)
  | tableNotFound (table : TableId)
  | tableNameNotFound (name : String)
  /-- The page lies past the end of its file. -/
  | pageOutOfRange (page : PageId)
  | pageFull (page : PageId)
  | pageCorrupt (page : PageId) (detail : String)
  | rowNotOnPage (page : PageId)
  | slotEmpty (page : PageId) (slot : UInt16)
  /-- The row was never stored. -/
  | rowNotStored
  | notOpen
  | transactionAborted
  | aggregateUnsupported (aggregate columnType : String)
  /-- The result of an aggregate is wider than an integer column. -/
  | aggregateOverflow (value : Int64)
  | capacityInvalid (capacity : Nat)
  | pageSizeInvalid (size : Nat)
  | rowTooWide (rowSize pageSize : Nat)
  deriving DecidableEq

/-- The internal bounds that a request can overrun. -/
inductive Abort where
  /-- A value past the ones that a row holds. -/
  | valueOutOfBounds
  /-- A number past its machine word. -/
  | wordOverflow
  /-- A page whose rows need more bytes than the page has. -/
  | pageOverrun
  /-- A link of a cache that leads to no entry. -/
  | deadLink
  /-- A handle to something that the store does not hold. -/
  | unknownHandle
  /-- A page that left the pool between being fetched and being changed. -/
  | pageLost
  /-- A file that has used up its page numbers. -/
  | pageNumbersExhausted
  /-- Room for more than memory can address. -/
  | outOfMemory
  deriving DecidableEq

/-- Why a request was not carried out. -/
inductive Failure where
  | refused (error : StoreError)
  | aborted (cause : Abort)
  deriving DecidableEq

/-- The first byte of a page in a file of pages of `pageSize` bytes. It has to fit 64 bits. -/
def PageId.offset (id : PageId) (pageSize : Nat) : Except Abort Nat :=
  let first := id.number.toNat * pageSize
  if first < UInt64.size then .ok first else .error .wordOverflow

/-- The wording of an error, with tables written as `nameOf` says. -/
def StoreError.message (nameOf : TableId → String) : StoreError → String
  | .fileSystem => "I/O error"
  | .schemaMismatch expected found => s!"Schema mismatch: expected {expected}, found {found}"
  | .typeMismatch expected found => s!"Type mismatch: expected {expected}, found {found}"
  | .columnOutOfRange index arity => s!"Field index {index} out of range for arity {arity}"
  | .columnNotFound name => s!"No field named {name}"
  | .tableNotFound table => s!"Table {table.text nameOf} not found"
  | .tableNameNotFound name => s!"No table named {name}"
  | .pageOutOfRange page => s!"{page.text nameOf} is past the end of its heap file"
  | .pageFull page => s!"{page.text nameOf} is full"
  | .pageCorrupt page detail => s!"Page {page.text nameOf} is corrupt: {detail}"
  | .rowNotOnPage page => s!"Tuple does not live on {page.text nameOf}"
  | .slotEmpty page slot => s!"Slot {slot.toNat} of {page.text nameOf} is already empty"
  | .rowNotStored => "Tuple has no record id"
  | .notOpen => "Iterator is not open"
  | .transactionAborted => "Transaction aborted"
  | .aggregateUnsupported aggregate columnType =>
    s!"Aggregate {aggregate} is not supported over {columnType} fields"
  | .aggregateOverflow value => s!"Aggregate result {value.toInt} does not fit an integer field"
  | .capacityInvalid capacity => s!"Invalid cache capacity: {capacity}"
  | .pageSizeInvalid size => s!"Invalid page size: {size}"
  | .rowTooWide rowSize pageSize => s!"A {rowSize}-byte tuple does not fit a {pageSize}-byte page"

namespace Failure

/-- A check whose error refuses the whole request. -/
def ofCheck {α : Type} : Except StoreError α → Except Failure α
  | .ok a => .ok a
  | .error e => .error (.refused e)

/-- A computation whose overrun aborts the whole request. -/
def ofGuard {α : Type} : Except Abort α → Except Failure α
  | .ok a => .ok a
  | .error e => .error (.aborted e)

@[simp] theorem ofCheck_ok {α : Type} (a : α) : ofCheck (.ok a) = .ok a := rfl
@[simp] theorem ofCheck_error {α : Type} (e : StoreError) :
    ofCheck (.error e : Except StoreError α) = .error (.refused e) := rfl

end Failure

end RowStore
