import RowStore.Schema
import RowStore.Value.Encoding

/-!
# Rows

A row holds a value for each column of its schema and, once it is stored, the place where it lives. Its bytes are
those of its values, one after another.
-/

namespace RowStore

/-- A row. Its id is set while it is stored on a page. -/
structure Row where
  schema : Schema
  values : List Value
  id : Option RowId
  deriving DecidableEq

namespace Row

/-! ## Making rows -/

/-- The first pair of a column's type and a value's type that differ. -/
def firstMismatch : List ColumnType → List Value → Option (ColumnType × ColumnType)
  | expected :: types, v :: values =>
    if v.type = expected then firstMismatch types values else some (expected, v.type)
  | _, _ => none

/-- A row of checked values: as many as the schema has columns, each of its column's type. Texts are cut to what is
kept of them. -/
def ofValues (schema : Schema) (values : List Value) : Except StoreError Row :=
  if values.length ≠ schema.arity then
    .error (.schemaMismatch schema.text s!"{values.length} fields")
  else match firstMismatch schema.types values with
    | some (expected, found) => .error (Value.mismatch expected found)
    | none => .ok ⟨schema, values.map Value.fit, none⟩

/-- Reads values of the given types one after another. -/
def decodeValues? : List ColumnType → List UInt8 → Option (List Value)
  | [], _ => some []
  | t :: types, bytes =>
    match Value.decode? t bytes, decodeValues? types (bytes.drop t.width) with
    | some v, some values => some (v :: values)
    | _, _ => none

/-- Reads a row from the front of `bytes`. -/
def decode? (schema : Schema) (bytes : List UInt8) : Option Row :=
  (decodeValues? schema.types bytes).map (⟨schema, ·, none⟩)

def encode (row : Row) : List UInt8 := row.values.flatMap Value.encode

/-! ## Reading and changing rows -/

def arity (row : Row) : Nat := row.values.length

def value (row : Row) (index : Nat) : Except StoreError Value :=
  match row.values[index]? with
  | some v => .ok v
  | none => .error (.columnOutOfRange index row.arity)

/-- Changes the value at a place. The schema says which places there are and what belongs there, also where the row
holds fewer values. -/
def set (row : Row) (index : Nat) (v : Value) : Except Failure Row :=
  match row.schema.columnType index with
  | .error e => .error (.refused e)
  | .ok expected =>
    if v.type ≠ expected then .error (.refused (Value.mismatch expected v.type))
    else if index < row.arity then .ok { row with values := row.values.set index v.fit }
    else .error (.aborted .valueOutOfBounds)

def withSchema (row : Row) (schema : Schema) : Row := { row with schema }

def withId (row : Row) (id : Option RowId) : Row := { row with id }

/-- Whether two rows have the same schema and values, wherever they live. -/
def alike (a b : Row) : Bool := decide (a.schema = b.schema ∧ a.values = b.values)

/-- How a row is shown: its values with tabs between them. -/
def text (row : Row) : String := "\t".intercalate (row.values.map Value.text)

/-- Whether a row holds a value of the right type for each column. -/
def Conforms (row : Row) : Prop := row.values.map Value.type = row.schema.types

/-! ## How the parts go together -/

theorem firstMismatch_eq_none {types : List ColumnType} {values : List Value}
    (length_eq : values.length = types.length) :
    firstMismatch types values = none ↔ values.map Value.type = types := by
  induction types generalizing values with
  | nil => cases values <;> simp_all [firstMismatch]
  | cons t types ih =>
    cases values with
    | nil => simp at length_eq
    | cons v values =>
      simp only [List.length_cons, Nat.add_right_cancel_iff] at length_eq
      by_cases h : v.type = t <;> simp [firstMismatch, h, ih length_eq]

theorem conforms_ofValues {schema : Schema} {values : List Value} {row : Row}
    (h : ofValues schema values = .ok row) : row.Conforms := by
  unfold ofValues at h
  split at h
  · cases h
  · next length_eq =>
    split at h
    · cases h
    · next types_eq =>
      cases h
      rw [firstMismatch_eq_none (by simpa [Schema.arity, Schema.types] using length_eq)] at types_eq
      simpa [Conforms, Function.comp_def] using types_eq

theorem length_flatMap_encode (values : List Value) :
    (values.flatMap Value.encode).length = Schema.widthOf (values.map Value.type) := by
  induction values with
  | nil => rfl
  | cons v values ih => simp [Schema.widthOf, ih]

theorem length_encode {row : Row} (h : row.Conforms) : row.encode.length = row.schema.width := by
  rw [Schema.width, ← h, encode]
  exact length_flatMap_encode row.values

theorem map_type_decodeValues? {types : List ColumnType} {bytes : List UInt8} {values : List Value}
    (h : decodeValues? types bytes = some values) : values.map Value.type = types := by
  induction types generalizing bytes values with
  | nil => cases h; rfl
  | cons t types ih =>
    simp only [decodeValues?] at h
    split at h
    · next v vs hv hvs =>
      cases h
      simp [Value.type_of_decode? hv, ih hvs]
    · cases h

theorem conforms_decode? {schema : Schema} {bytes : List UInt8} {row : Row}
    (h : decode? schema bytes = some row) : row.Conforms := by
  obtain ⟨values, hv, rfl⟩ := Option.map_eq_some_iff.mp h
  exact map_type_decodeValues? hv

end Row

end RowStore
