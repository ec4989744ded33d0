import RowStore.Row

/-!
# Row buffers

A list of rows that is read from front to back, any number of times, while it is open.
-/

namespace RowStore

/-- Rows and the place up to which they have been given. -/
structure RowBuffer where
  schema : Schema
  rows : List Row
  position : Nat
  isOpen : Bool
  deriving DecidableEq

namespace RowBuffer

/-- A buffer that is not open yet. -/
def ofRows (schema : Schema) (rows : List Row) : RowBuffer := ⟨schema, rows, 0, false⟩

def opened (buffer : RowBuffer) : RowBuffer := { buffer with position := 0, isOpen := true }

def closed (buffer : RowBuffer) : RowBuffer := { buffer with isOpen := false }

def rest (buffer : RowBuffer) : List Row := buffer.rows.drop buffer.position

def hasNext (buffer : RowBuffer) : Except StoreError Bool :=
  if buffer.isOpen then .ok (decide (buffer.position < buffer.rows.length)) else .error .notOpen

/-- The next row, or none after the last. -/
def next (buffer : RowBuffer) : Except StoreError (Option Row × RowBuffer) :=
  if buffer.isOpen then
    match buffer.rows[buffer.position]? with
    | some row => .ok (some row, { buffer with position := buffer.position + 1 })
    | none => .ok (none, buffer)
  else .error .notOpen

/-- Goes before the first row, if the buffer is open. -/
def rewind (buffer : RowBuffer) : Except StoreError RowBuffer :=
  if buffer.isOpen then .ok { buffer with position := 0 } else .error .notOpen

def drain (buffer : RowBuffer) : Except StoreError (List Row × RowBuffer) :=
  if buffer.isOpen then
    .ok (buffer.rest, { buffer with position := max buffer.position buffer.rows.length })
  else .error .notOpen

theorem next_of_rest_cons {buffer : RowBuffer} {row : Row} {rows : List Row}
    (isOpen : buffer.isOpen = true) (h : buffer.rest = row :: rows) :
    buffer.next = .ok (some row, { buffer with position := buffer.position + 1 }) := by
  have : buffer.rows[buffer.position]? = some row := by
    rw [← List.head?_drop]; simpa [rest] using congrArg List.head? h
  simp [next, isOpen, this]

theorem next_of_rest_nil {buffer : RowBuffer} (isOpen : buffer.isOpen = true)
    (h : buffer.rest = []) : buffer.next = .ok (none, buffer) := by
  have : buffer.rows[buffer.position]? = none := by
    simpa [rest] using h
  simp [next, isOpen, this]

end RowBuffer

end RowStore
