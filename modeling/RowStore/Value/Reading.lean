import RowStore.Value

/-!
# Reading numbers digit by digit

An integer is read from the first digit on. Each digit is added to ten times the number so far, or taken off it where
the number is below zero, and nothing is read as soon as one of the two does not fit 32 bits.
-/

namespace RowStore

/-- The number as an integer of 32 bits, if it fits. -/
def int32? (n : Int) : Option Int32 := if -0x80000000 ≤ n ∧ n < 0x80000000 then some (Int32.ofInt n) else none

/-- Takes in one digit more. -/
def takeDigit (negative : Bool) (n : Int32) (c : Char) : Option Int32 := do
  if !c.isDigit then none
  let tens ← int32? (n.toInt * 10)
  let digit : Nat := c.toNat - '0'.toNat
  int32? (if negative then tens.toInt - digit else tens.toInt + digit)

/-- The number that digits write on one side of zero: one digit or more. -/
def takeDigits (negative : Bool) (chars : List Char) : Option Int32 :=
  if chars.isEmpty then none else chars.foldlM (takeDigit negative) 0

/-- Reads an integer of 32 bits: digits, after a sign or none. -/
def readInt (text : String) : Option Int32 :=
  match text.toList with
  | '-' :: rest => takeDigits true rest
  | '+' :: rest => takeDigits false rest
  | chars => takeDigits false chars

end RowStore
