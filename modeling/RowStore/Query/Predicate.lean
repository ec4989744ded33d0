import RowStore.Row

/-!
# Predicates

A predicate compares one value of a row with a constant or with another value of the same row.
-/

namespace RowStore

inductive Operand where
  | constant (v : Value)
  | column (index : Nat)
  deriving DecidableEq

structure Predicate where
  column : Nat
  comparison : Comparison
  operand : Operand
  deriving DecidableEq

namespace Predicate

/-- A comparison with a number or a text. A text is cut to what is kept of it, as where a value is made of it. A value
that is there already is compared as it is: it goes into an operand of its own. -/
def constant (column : Nat) (comparison : Comparison) (v : Value) : Predicate :=
  ⟨column, comparison, .constant v.fit⟩

/-- Whether a row satisfies the predicate. The left side is looked up first. -/
def holds (p : Predicate) (row : Row) : Except StoreError Bool := do
  let left ← row.value p.column
  let right ← match p.operand with
    | .constant v => .ok v
    | .column index => row.value index
  left.compare p.comparison right

def text (p : Predicate) : String :=
  match p.operand with
  | .constant v => s!"f{p.column} {p.comparison.symbol} {v.text}"
  | .column index => s!"f{p.column} {p.comparison.symbol} f{index}"

end Predicate

end RowStore
