import RowStore.Text.Boundary
import RowStore.Value.Encoding

/-!
# Where texts are cut

A text is cut when a value is made of it, when a value is put into a row, and once more when a value is written, each
time by its bytes.
-/

namespace RowStore.Value

def ofText (s : String) : Except Abort Value := (Utf8.cut textLimit s).map .string

/-- The value as a row keeps it. A text that is short enough is not made anew. -/
def fitted : Value → Except Abort Value
  | .int n => .ok (.int n)
  | .string s => if textLimit < Utf8.byteCount s then ofText s else .ok (.string s)

/-- The bytes of a value, those of a text up to the boundary, and the zeros after them. -/
def written : Value → Except Abort (List UInt8)
  | .int n => .ok (wordBytes n.toUInt32)
  | .string s =>
    (Utf8.boundaryAtMost textLimit (Utf8.encode s)).map fun n =>
      wordBytes (UInt32.ofNat n) ++ (Utf8.encode s).take n ++ List.replicate (textLimit - n) 0

/-- Reads a value of the type from the front of `bytes`, and tells how many of them it took. -/
def read? (t : ColumnType) (bytes : List UInt8) : Option (Value × Nat) :=
  (decode? t bytes).map (·, t.width)

end RowStore.Value
