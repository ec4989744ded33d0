import RowStore.Failure
import RowStore.Text.Utf8

/-!
# Boundaries between characters

A text is cut by its bytes: from the limit back to the next place where a character begins. Counting back stops at the
first byte at the latest, because a character begins there.
-/

namespace RowStore.Utf8

/-- Whether a byte belongs to a character that began before it. -/
def isContinuation (b : UInt8) : Bool := decide (0x80 ≤ b ∧ b < 0xC0)

/-- Whether `n` bytes of a text end between two characters, or where the text begins or ends. -/
def isBoundary (bytes : List UInt8) (n : Nat) : Bool :=
  match bytes[n]? with
  | some b => n == 0 || !isContinuation b
  | none => n == bytes.length

/-- The last boundary up to `n`. The count must not fall below zero. -/
def lastBoundary (bytes : List UInt8) : Nat → Except Abort Nat
  | 0 => if isBoundary bytes 0 then .ok 0 else .error .wordOverflow
  | n + 1 => if isBoundary bytes (n + 1) then .ok (n + 1) else lastBoundary bytes n

/-- The number of bytes that are kept of a text where there is room for `limit`. -/
def boundaryAtMost (limit : Nat) (bytes : List UInt8) : Except Abort Nat :=
  if bytes.length ≤ limit then .ok bytes.length else lastBoundary bytes limit

/-- The text of the bytes that are kept. -/
def cut (limit : Nat) (text : String) : Except Abort String :=
  (boundaryAtMost limit (encode text)).map fun n => decodeLossy ((encode text).take n)

end RowStore.Utf8
