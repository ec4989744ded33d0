import RowStore.Disk
import RowStore.Page.Encoding
import RowStore.Text.Checksum

/-!
# Table files

A table is a file of pages without a header: page `n` begins at `n` times the page size. The file says which schema its
rows have. Its table number is the checksum of its path, so that the same file has the same number in every run.
-/

namespace RowStore

/-- An opened table file. `serial` tells apart two openings of one file. -/
structure TableFile where
  id : TableId
  place : Place
  schema : Schema
  pageSize : Nat
  serial : Nat
  deriving DecidableEq

namespace TableFile

/-- The table number of a file at a path. -/
def idOfPath (path : String) : TableId := ⟨Checksum.crc32 (Utf8.encode path)⟩

/-- Whether rows of a schema can be stored in pages of a size. -/
def checkSizes (schema : Schema) (pageSize : Nat) : Except Failure Unit :=
  if pageSize = 0 then .error (.refused (.pageSizeInvalid pageSize))
  else match Layout.slotsFor pageSize schema with
    | .error cause => .error (.aborted cause)
    | .ok slots =>
      if slots = 0 then .error (.refused (.rowTooWide schema.width pageSize)) else .ok ()

/-- The page of this file with a number. -/
def pageId (file : TableFile) (number : UInt32) : PageId := ⟨file.id, number⟩

def countPages (file : TableFile) (bytes : Bytes) : UInt32 :=
  UInt32.ofNat (bytes.length / file.pageSize)

/-- The first byte of a page, and the first one after it. Both have to fit 64 bits. -/
def pageRange (file : TableFile) (number : UInt32) : Except Abort (Nat × Nat) :=
  match (file.pageId number).offset file.pageSize with
  | .error cause => .error cause
  | .ok first =>
    if first + file.pageSize < UInt64.size then .ok (first, first + file.pageSize)
    else .error .wordOverflow

/-- The bytes of one page in the bytes of the file. -/
def pageBytes (file : TableFile) (number : UInt32) (bytes : Bytes) : Except Failure Bytes :=
  match file.pageRange number with
  | .error cause => .error (.aborted cause)
  | .ok (first, last) =>
    if bytes.length < last then .error (.refused (.pageOutOfRange (file.pageId number)))
    else .ok ((bytes.drop first).take file.pageSize)

end TableFile

end RowStore
