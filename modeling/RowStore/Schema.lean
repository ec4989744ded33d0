import RowStore.Value

/-!
# Schemas

The columns of a table in order, each with a type and, if it has one, a name. All rows of one schema take the same
number of bytes.
-/

namespace RowStore

structure Column where
  type : ColumnType
  name : Option String
  deriving DecidableEq

/-- How a column is shown: its type and, between brackets, its name. -/
def Column.text (column : Column) : String :=
  let name := column.name.getD ""
  s!"{column.type.text}({name})"

/-- The column with its name below a qualifier. A column without a name is called `null` there. -/
def Column.qualify (column : Column) (qualifier : String) : Column :=
  let name := column.name.getD "null"
  { column with name := some s!"{qualifier}.{name}" }

/-- The columns of a table. Two schemas are equal when their columns are. -/
structure Schema where
  columns : List Column
  deriving DecidableEq

namespace Schema

/-! ## Building schemas -/

def empty : Schema := ⟨[]⟩

instance : Inhabited Schema := ⟨empty⟩

def addNamed (schema : Schema) (name : String) (type : ColumnType) : Schema :=
  ⟨schema.columns ++ [⟨type, some name⟩]⟩

def addUnnamed (schema : Schema) (type : ColumnType) : Schema :=
  ⟨schema.columns ++ [⟨type, none⟩]⟩

/-- Columns of the given types, without names. -/
def ofTypes (types : List ColumnType) : Schema := ⟨types.map (⟨·, none⟩)⟩

def append (first second : Schema) : Schema := ⟨first.columns ++ second.columns⟩

/-- Puts a qualifier and a dot before every name. -/
def qualify (schema : Schema) (qualifier : String) : Schema :=
  ⟨schema.columns.map (·.qualify qualifier)⟩

/-! ## Reading schemas -/

def arity (schema : Schema) : Nat := schema.columns.length

def types (schema : Schema) : List ColumnType := schema.columns.map Column.type

def widthOf : List ColumnType → Nat
  | [] => 0
  | t :: types => t.width + widthOf types

/-- The number of bytes of an encoded row. -/
def width (schema : Schema) : Nat := widthOf schema.types

def column (schema : Schema) (index : Nat) : Except StoreError Column :=
  match schema.columns[index]? with
  | some column => .ok column
  | none => .error (.columnOutOfRange index schema.arity)

def columnType (schema : Schema) (index : Nat) : Except StoreError ColumnType :=
  (schema.column index).map Column.type

/-- The name of the column at a place, if it has one. -/
def columnName (schema : Schema) (index : Nat) : Except StoreError (Option String) :=
  (schema.column index).map Column.name

/-- The place of the first column with a name. -/
def indexOf (schema : Schema) (name : String) : Except StoreError Nat :=
  match schema.columns.findIdx? fun column => decide (column.name = some name) with
  | some index => .ok index
  | none => .error (.columnNotFound name)

/-- How a schema is shown: its columns with commas between them. -/
def text (schema : Schema) : String := ",".intercalate (schema.columns.map Column.text)

/-- The refusal of rows of schema `found` where rows of schema `expected` belong. -/
def mismatch (expected found : Schema) : StoreError := .schemaMismatch expected.text found.text

/-! ## How the parts go together -/

@[simp] theorem types_qualify (schema : Schema) (qualifier : String) :
    (schema.qualify qualifier).types = schema.types := by
  simp [types, qualify, Function.comp_def, Column.qualify]

end Schema

end RowStore
