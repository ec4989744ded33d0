import RowStore.Text.Unprintable

/-!
# Quoted text

A text between double quotes, on one line and without characters that cannot be seen.
-/

namespace RowStore.Quoted

/-- The digits of a number in base 16, in lower case. -/
def hexDigits (n : Nat) : List Char := Nat.toDigits 16 n

def byNumber (c : Char) : List Char := '\\' :: 'u' :: '\x7b' :: hexDigits c.toNat ++ ['\x7d']

/-- How a character is written between the quotes. -/
def escape (c : Char) : List Char :=
  match c with
  | '\x00' => ['\\', '0']
  | '\t' => ['\\', 't']
  | '\r' => ['\\', 'r']
  | '\n' => ['\\', 'n']
  | '\\' => ['\\', '\\']
  | '"' => ['\\', '"']
  | _ => if Unprintable.isUnprintable c then byNumber c else [c]

def quote (text : String) : String :=
  String.ofList ('"' :: text.toList.flatMap escape ++ ['"'])

example : quote "a\t\x07" = "\"a\\t\\u\x7b7\x7d\"" := by decide +kernel

end RowStore.Quoted
