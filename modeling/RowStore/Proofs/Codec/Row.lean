import RowStore.Proofs.Codec.Text
import RowStore.Row

/-!
# Reading back a row

A value is read back from its bytes as it was, its text cut to what is kept. A row made by the calls that make rows has
nothing to cut, so its bytes give back all of it but its place.
-/

namespace RowStore

/-! ## Values -/

namespace Value

theorem truncate_truncate (limit : Nat) (s : String) :
    Utf8.truncate limit (Utf8.truncate limit s) = Utf8.truncate limit s := by
  unfold Utf8.truncate
  rw [String.toList_ofList, Utf8.takeBytes_of_fits (Utf8.length_encodeChars_takeBytes limit s.toList)]

theorem fit_fit (v : Value) : v.fit.fit = v.fit := by
  cases v with
  | int n => rfl
  | string s => rw [fit, fit, truncate_truncate]

theorem decode?_encode (v : Value) (rest : List UInt8) : decode? v.type (v.encode ++ rest) = some v.fit := by
  have front : (v.encode ++ rest).take v.type.width = v.encode := List.take_left' (length_encode v)
  have enough : ¬v.encode.length < v.type.width := by rw [length_encode]; exact Nat.lt_irrefl _
  unfold decode?
  simp only [front, if_neg enough]
  cases v with
  | int n => simp [type, encode, fit]
  | string s =>
    have le := length_encode_truncate_le s
    have small : (UInt32.ofNat (Utf8.encode (Utf8.truncate textLimit s)).length).toNat =
        (Utf8.encode (Utf8.truncate textLimit s)).length := by
      rw [UInt32.toNat_ofNat']
      have : textLimit = 128 := rfl
      omega
    simp only [type, encode, List.append_assoc, List.take_left' (length_wordBytes _),
      List.drop_left' (length_wordBytes _), wordOfBytes_wordBytes, small, if_neg (Nat.not_lt.mpr le)]
    rw [List.take_left' rfl, Utf8.decodeLossy_encode, fit]

theorem fit_eq_self_iff {v : Value} : v.fit = v ↔ ∀ s, v = .string s → Utf8.byteCount s ≤ textLimit := by
  cases v with
  | int n => simp [fit]
  | string s => simp [fit, Utf8.truncate_eq_iff]

theorem byteCount_le_of_decode? {t : ColumnType} {bytes : List UInt8} {s : String}
    (h : decode? t bytes = some (.string s)) : Utf8.byteCount s ≤ 3 * textLimit := by
  unfold decode? at h
  dsimp only at h
  split at h
  · cases h
  · split at h
    · cases h
    · split at h
      · cases h
      · next within =>
        cases h
        apply Nat.le_trans (Utf8.byteCount_decodeLossy_le _)
        apply Nat.mul_le_mul_left
        exact Nat.le_trans (List.length_take_le ..) (Nat.not_lt.mp within)

/-- The value that is read from zeros. -/
def zero : ColumnType → Value
  | .int => .int 0
  | .string => .string ""

@[simp] theorem type_zero (t : ColumnType) : (zero t).type = t := by cases t <;> rfl

@[simp] theorem fit_zero (t : ColumnType) : (zero t).fit = zero t := by
  cases t with
  | int => rfl
  | string => simp [zero, fit, Utf8.truncate, Utf8.takeBytes]

theorem encode_zero (t : ColumnType) : (zero t).encode = List.replicate t.width 0 := by
  cases t with
  | int => rfl
  | string => rfl

end Value

/-! ## Rows -/

namespace Row

theorem decodeValues?_encode (values : List Value) (rest : List UInt8) :
    decodeValues? (values.map Value.type) (values.flatMap Value.encode ++ rest) = some (values.map Value.fit) := by
  induction values with
  | nil => rfl
  | cons v values ih =>
    simp only [List.map_cons, List.flatMap_cons, List.append_assoc, decodeValues?, Value.decode?_encode,
      List.drop_left' (Value.length_encode v), ih]

def fit (row : Row) : Row := { row with values := row.values.map Value.fit }

/-- Every value of the row is one that is kept as it is. -/
def Fits (row : Row) : Prop := row.values.map Value.fit = row.values

theorem fits_iff {row : Row} : row.Fits ↔ ∀ s, .string s ∈ row.values → Utf8.byteCount s ≤ textLimit := by
  unfold Fits
  constructor
  · intro same s mem
    rw [← same] at mem
    obtain ⟨v, -, fit_eq⟩ := List.mem_map.mp mem
    exact Value.fit_eq_self_iff.mp (by rw [← fit_eq, Value.fit_fit]) s rfl
  · intro short
    conv => rhs; rw [← List.map_id row.values]
    apply List.map_congr_left
    intro v mem
    apply Value.fit_eq_self_iff.mpr
    rintro s rfl
    exact short s mem

theorem Fits.fit_eq {row : Row} (h : row.Fits) : row.fit = row := by
  rw [fit, h]

theorem fit_eq_self_iff {row : Row} : row.fit = row ↔ row.Fits :=
  ⟨fun same => congrArg Row.values same, Fits.fit_eq⟩

theorem fits_fit (row : Row) : row.fit.Fits := by
  simp only [Fits, fit, List.map_map]
  exact List.map_congr_left fun v _ => Value.fit_fit v

theorem conforms_fit {row : Row} (h : row.Conforms) : row.fit.Conforms := by
  simpa [Conforms, fit, Function.comp_def] using h

theorem decode?_encode {row : Row} (conforms : row.Conforms) (rest : List UInt8) :
    decode? row.schema (row.encode ++ rest) = some (row.fit.withId none) := by
  rw [decode?, ← conforms, encode, decodeValues?_encode]
  rfl

theorem byteCount_le_of_decodeValues? {types : List ColumnType} {bytes : List UInt8} {values : List Value} {s : String}
    (h : decodeValues? types bytes = some values) (mem : .string s ∈ values) : Utf8.byteCount s ≤ 3 * textLimit := by
  induction types generalizing bytes values with
  | nil =>
    cases h
    cases mem
  | cons t types ih =>
    unfold decodeValues? at h
    split at h
    · next v others first rest =>
      cases h
      rcases List.mem_cons.mp mem with rfl | mem
      · exact Value.byteCount_le_of_decode? first
      · exact ih rest mem
    · cases h

theorem byteCount_le_of_decode? {schema : Schema} {bytes : List UInt8} {row : Row} {s : String}
    (h : decode? schema bytes = some row) (mem : .string s ∈ row.values) : Utf8.byteCount s ≤ 3 * textLimit := by
  obtain ⟨values, values_eq, rfl⟩ := Option.map_eq_some_iff.mp h
  exact byteCount_le_of_decodeValues? values_eq mem

/-! ## A row of zeros -/

/-- The row that is read from zeros. -/
def zero (schema : Schema) : Row := ⟨schema, schema.types.map Value.zero, none⟩

theorem conforms_zero (schema : Schema) : (zero schema).Conforms := by
  simp [Conforms, zero, Function.comp_def]

theorem fits_zero (schema : Schema) : (zero schema).Fits := by
  simp [Fits, zero, Function.comp_def]

theorem encode_zero (schema : Schema) : (zero schema).encode = List.replicate schema.width 0 := by
  simp only [encode, zero, Schema.width, List.flatMap_map]
  induction schema.types with
  | nil => rfl
  | cons t types ih =>
    rw [List.flatMap_cons, Value.encode_zero, ih, List.replicate_append_replicate, Schema.widthOf]

/-! ## Rows that are made -/

/-- A row that was made of checked values and changed by checked values, wherever it lives. -/
inductive Made : Row → Prop where
  | ofValues {schema : Schema} {values : List Value} {row : Row} (made : ofValues schema values = .ok row) : Made row
  | set {row row' : Row} {index : Nat} {v : Value} (before : Made row) (set : row.set index v = .ok row') : Made row'
  | withId {row : Row} (before : Made row) (id : Option RowId) : Made (row.withId id)

theorem fits_ofValues {schema : Schema} {values : List Value} {row : Row} (h : ofValues schema values = .ok row) :
    row.Fits := by
  unfold ofValues at h
  split at h
  · cases h
  · split at h
    · cases h
    · cases h
      exact fits_fit ⟨schema, values, none⟩

theorem set_eq_ok {row row' : Row} {index : Nat} {v : Value} (h : row.set index v = .ok row') :
    row.schema.types[index]? = some v.type ∧ row' = { row with values := row.values.set index v.fit } := by
  unfold set Schema.columnType Schema.column at h
  cases column : row.schema.columns[index]? with
  | none => simp [column, Except.map] at h
  | some column' =>
    simp only [column, Except.map] at h
    split at h
    · cases h
    · next type_eq =>
      split at h
      · cases h
        exact ⟨by simpa [Schema.types, column] using (Classical.not_not.mp type_eq).symm, rfl⟩
      · cases h

theorem Conforms.set {row row' : Row} {index : Nat} {v : Value} (h : row.Conforms) (set : row.set index v = .ok row') :
    row'.Conforms := by
  obtain ⟨here, rfl⟩ := set_eq_ok set
  unfold Conforms at h ⊢
  rw [List.map_set, Value.type_fit, h]
  exact List.ext_getElem? fun i => by
    rw [List.getElem?_set]
    split
    · next same =>
      subst same
      split
      · exact here.symm
      · next out => rw [List.getElem?_eq_none (Nat.le_of_not_lt out)]
    · rfl

theorem Made.conforms {row : Row} (h : row.Made) : row.Conforms := by
  induction h with
  | ofValues made => exact conforms_ofValues made
  | withId _ id ih => exact ih
  | set _ set ih => exact ih.set set

theorem Made.fits {row : Row} (h : row.Made) : row.Fits := by
  induction h with
  | ofValues made => exact fits_ofValues made
  | withId _ id ih => exact ih
  | set _ set ih =>
    obtain ⟨-, rfl⟩ := set_eq_ok set
    unfold Fits at ih ⊢
    rw [List.map_set, Value.fit_fit, ih]

theorem ofValues_eq_fit {schema : Schema} {values : List Value} (types_eq : values.map Value.type = schema.types) :
    ofValues schema values = .ok ⟨schema, values.map Value.fit, none⟩ := by
  have length_eq : values.length = schema.arity := by
    simpa [Schema.arity, Schema.types] using congrArg List.length types_eq
  have matching : firstMismatch schema.types values = none :=
    (firstMismatch_eq_none (by simpa [Schema.arity, Schema.types] using length_eq)).mpr types_eq
  unfold ofValues
  simp only [length_eq, ne_eq, not_true, ite_false, matching]

theorem ofValues_eq_ok {schema : Schema} {values : List Value} (types_eq : values.map Value.type = schema.types)
    (fit_eq : values.map Value.fit = values) : ofValues schema values = .ok ⟨schema, values, none⟩ := by
  rw [ofValues_eq_fit types_eq, fit_eq]

theorem Made.of_fits {row : Row} (conforms : row.Conforms) (fits : row.Fits) : row.Made :=
  .withId (.ofValues (ofValues_eq_ok conforms fits)) row.id

end Row

end RowStore
