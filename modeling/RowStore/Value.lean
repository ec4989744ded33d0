import RowStore.Failure
import RowStore.Text.Quoted
import RowStore.Text.Utf8

/-!
# Values

A column holds 32-bit integers or texts. Values of one type are ordered, integers by number and texts by their bytes;
values of different types cannot be compared.
-/

namespace RowStore

inductive ColumnType where
  | int
  | string
  deriving DecidableEq

/-- The number of bytes that are kept of a text. -/
def textLimit : Nat := 128

namespace ColumnType

/-- The number of bytes of every encoded value of the type. A text has its length before it. -/
def width : ColumnType → Nat
  | .int => 4
  | .string => 4 + textLimit

def text : ColumnType → String
  | .int => "INT"
  | .string => "STRING"

end ColumnType

inductive Value where
  | int (n : Int32)
  | string (s : String)
  deriving DecidableEq

namespace Value

def type : Value → ColumnType
  | .int _ => .int
  | .string _ => .string

/-- A value as text: the decimal digits of an integer, a text as it is. -/
def text : Value → String
  | .int n => toString n.toInt
  | .string s => s

/-- Cuts a text to what is kept of it. -/
def fit : Value → Value
  | .int n => .int n
  | .string s => .string (Utf8.truncate textLimit s)

@[simp] theorem type_fit (v : Value) : v.fit.type = v.type := by cases v <;> rfl

/-- The refusal of a value of type `found` where one of type `expected` belongs. -/
def mismatch (expected found : ColumnType) : StoreError :=
  .typeMismatch expected.text found.text

def asInt : Value → Except StoreError Int32
  | .int n => .ok n
  | .string _ => .error (mismatch .int .string)

/-! ## Order -/

/-- How two values of one type stand to each other. -/
def order : Value → Value → Except StoreError Ordering
  | .int a, .int b => .ok (compare a b)
  | .string a, .string b => .ok (compare (Utf8.encode a) (Utf8.encode b))
  | a, b => .error (mismatch a.type b.type)

end Value

inductive Comparison where
  | eq
  | ne
  | gt
  | ge
  | lt
  | le
  /-- One text occurs in the other; for integers the same as `eq`. -/
  | like
  deriving DecidableEq

namespace Comparison

def symbol : Comparison → String
  | .eq => "="
  | .ne => "<>"
  | .gt => ">"
  | .ge => ">="
  | .lt => "<"
  | .le => "<="
  | .like => "LIKE"

/-- Whether the comparison holds of two values that stand to each other as `o` says. -/
def accepts : Comparison → Ordering → Bool
  | .eq, o | .like, o => o == .eq
  | .ne, o => o != .eq
  | .gt, o => o == .gt
  | .ge, o => o != .lt
  | .lt, o => o == .lt
  | .le, o => o != .gt

end Comparison

/-- Evaluates `a c b`. Texts are searched byte by byte. -/
def Value.compare (a : Value) (c : Comparison) (b : Value) : Except StoreError Bool :=
  match c, a, b with
  | .like, .string x, .string y => .ok (Utf8.occurs (Utf8.encode y) (Utf8.encode x))
  | _, _, _ => (a.order b).map c.accepts

/-! ## Reading values -/

/-- The number that decimal digits write, most significant first. -/
def digitsValue (digits : List Char) : Nat :=
  digits.foldl (fun n c => n * 10 + (c.toNat - '0'.toNat)) 0

/-- Reads an unsigned number: one digit or more. -/
def digits? (chars : List Char) : Option Nat :=
  if !chars.isEmpty && chars.all Char.isDigit then some (digitsValue chars) else none

/-- Reads an integer that fits 32 bits: digits, after a sign or none. -/
def int? (text : String) : Option Int32 := do
  let n ← match text.toList with
    | '-' :: rest => (digits? rest).map fun n => -(n : Int)
    | '+' :: rest => (digits? rest).map Int.ofNat
    | chars => (digits? chars).map Int.ofNat
  if -0x80000000 ≤ n ∧ n < 0x80000000 then some (Int32.ofInt n) else none

/-- Reads a value of the type from text. Every text is a text value, cut to what is kept of it. -/
def ColumnType.parse (t : ColumnType) (text : String) : Except StoreError Value :=
  match t with
  | .int => match int? text with
    | some n => .ok (.int n)
    | none => .error (.typeMismatch ColumnType.int.text (Quoted.quote text))
  | .string => .ok (Value.string text).fit

end RowStore
