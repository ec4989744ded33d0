import Mathlib.Data.List.Induction
import Mathlib.Data.Nat.Digits.Defs
import RowStore.Proofs.Codec.NumberText
import RowStore.Query.Aggregator
import RowStore.Value.Reading

/-!
# Values and their texts

A text is read as an integer just when it is a sign, or none, before one decimal digit or more, and the number that they
write fits 32 bits. It does not matter that the number is read digit by digit, and that each step has to fit 32 bits as
well: the digits only take a number further away from zero.

So the text of a value tells which value it is, once its type is known and its text is short enough to be kept.
-/

namespace RowStore

/-! ## Numerals -/

inductive NumeralSign where
  | none
  | plus
  | minus

namespace NumeralSign

def chars : NumeralSign → List Char
  | none => []
  | plus => ['+']
  | minus => ['-']

def signed (sign : NumeralSign) (n : Nat) : Int :=
  match sign with
  | none | plus => n
  | minus => -n

end NumeralSign

/-- The characters are decimal digits, one or more, the most significant first, and write the number. -/
structure DigitsOf (chars : List Char) (n : Nat) : Prop where
  some : chars ≠ []
  digits : ∀ c ∈ chars, '0' ≤ c ∧ c ≤ '9'
  value : n = Nat.ofDigits 10 (chars.reverse.map fun c => c.toNat - '0'.toNat)

/-- The text is a sign or none, and then digits, and writes the number. -/
def Numeral (text : String) (n : Int) : Prop :=
  ∃ (sign : NumeralSign) (chars : List Char) (m : Nat),
    text.toList = sign.chars ++ chars ∧ DigitsOf chars m ∧ n = sign.signed m

/-! ## Digits -/

theorem digitsValue_eq_ofDigits (chars : List Char) :
    digitsValue chars = Nat.ofDigits 10 (chars.reverse.map fun c => c.toNat - '0'.toNat) := by
  -- The last digit is the least, and is taken in last.
  induction chars using List.reverseRecOn with
  | nil => rfl
  | append_singleton chars c ih =>
    rw [digitsValue] at ih ⊢
    rw [List.foldl_append, ih, List.reverse_append]
    simp only [List.foldl_cons, List.foldl_nil, List.reverse_singleton, List.singleton_append, List.map_cons,
      Nat.ofDigits_cons]
    omega

theorem isDigit_iff {c : Char} : c.isDigit = true ↔ '0' ≤ c ∧ c ≤ '9' := by
  rw [Char.isDigit, Bool.and_eq_true, decide_eq_true_iff, decide_eq_true_iff]
  rfl

theorem digits?_eq_some_iff {chars : List Char} {n : Nat} : digits? chars = some n ↔ DigitsOf chars n := by
  have digits_iff : chars.all Char.isDigit = true ↔ ∀ c ∈ chars, '0' ≤ c ∧ c ≤ '9' := by
    simp only [List.all_eq_true, isDigit_iff]
  have cond_iff : (!chars.isEmpty && chars.all Char.isDigit) = true ↔ chars ≠ [] ∧ ∀ c ∈ chars, '0' ≤ c ∧ c ≤ '9' := by
    rw [Bool.and_eq_true, digits_iff]
    simp
  unfold digits?
  split
  case isTrue all =>
    obtain ⟨some, digits⟩ := cond_iff.mp all
    rw [Option.some.injEq, digitsValue_eq_ofDigits]
    exact ⟨fun eq => ⟨some, digits, eq.symm⟩, fun h => h.value.symm⟩
  case isFalse other =>
    exact iff_of_false nofun fun h => other (cond_iff.mpr ⟨h.some, h.digits⟩)

/-! ## Signs -/

theorem DigitsOf.ne_sign {chars rest : List Char} {n : Nat} (h : DigitsOf chars n) :
    chars ≠ '-' :: rest ∧ chars ≠ '+' :: rest := by
  constructor
  · rintro rfl
    exact absurd (h.digits '-' List.mem_cons_self) (by decide)
  · rintro rfl
    exact absurd (h.digits '+' List.mem_cons_self) (by decide)

/-- A sign or none, and what comes after it. -/
def splitSign : List Char → NumeralSign × List Char
  | '-' :: rest => (.minus, rest)
  | '+' :: rest => (.plus, rest)
  | chars => (.none, chars)

theorem append_splitSign (chars : List Char) : (splitSign chars).1.chars ++ (splitSign chars).2 = chars := by
  unfold splitSign
  split <;> rfl

theorem splitSign_of_ne {chars : List Char} (minus : ∀ rest, chars ≠ '-' :: rest) (plus : ∀ rest, chars ≠ '+' :: rest) :
    splitSign chars = (.none, chars) := by
  unfold splitSign
  split
  case h_1 => exact absurd rfl (minus _)
  case h_2 => exact absurd rfl (plus _)
  case h_3 => rfl

theorem DigitsOf.splitSign_append {chars : List Char} {n : Nat} (h : DigitsOf chars n) (sign : NumeralSign) :
    splitSign (sign.chars ++ chars) = (sign, chars) := by
  cases sign with
  | minus => rfl
  | plus => rfl
  | none => exact splitSign_of_ne (fun _ => h.ne_sign.1) fun _ => h.ne_sign.2

def number? (chars : List Char) : Option Int := (digits? (splitSign chars).2).map (splitSign chars).1.signed

theorem number?_eq_some_iff {text : String} {n : Int} : number? text.toList = some n ↔ Numeral text n := by
  rw [number?, Option.map_eq_some_iff]
  constructor
  · rintro ⟨m, read, rfl⟩
    exact ⟨_, _, m, (append_splitSign _).symm, digits?_eq_some_iff.mp read, rfl⟩
  · rintro ⟨sign, chars, m, text_eq, digits, rfl⟩
    rw [text_eq, digits.splitSign_append]
    exact ⟨m, digits?_eq_some_iff.mpr digits, rfl⟩

theorem int?_eq (text : String) : int? text = (number? text.toList).bind int32? := by
  unfold int? number?
  generalize text.toList = chars
  split
  case h_1 rest =>
    have signed : splitSign ('-' :: rest) = (.minus, rest) := rfl
    rw [signed]
    cases digits? rest <;> rfl
  case h_2 rest =>
    have signed : splitSign ('+' :: rest) = (.plus, rest) := rfl
    rw [signed]
    cases digits? rest <;> rfl
  case h_3 minus plus =>
    rw [splitSign_of_ne minus plus]
    cases digits? chars <;> rfl

/-! ## Numbers of 32 bits -/

theorem int32?_eq_some_iff {n : Int} {m : Int32} : int32? n = some m ↔ m.toInt = n := by
  unfold int32?
  split
  case isTrue bounds =>
    obtain ⟨ge, lt⟩ := bounds
    have back : (Int32.ofInt n).toInt = n := Int32.toInt_ofInt_of_le ge lt
    rw [Option.some.injEq]
    constructor
    · rintro rfl
      exact back
    · rintro rfl
      exact Int32.ofInt_toInt m
  case isFalse out =>
    refine iff_of_false nofun ?_
    rintro rfl
    exact out ⟨m.le_toInt, m.toInt_lt⟩

theorem int?_eq_some_iff {text : String} {m : Int32} : int? text = some m ↔ Numeral text m.toInt := by
  rw [int?_eq, Option.bind_eq_some_iff]
  constructor
  · rintro ⟨n, number, fits⟩
    rw [int32?_eq_some_iff.mp fits]
    exact number?_eq_some_iff.mp number
  · intro numeral
    exact ⟨m.toInt, number?_eq_some_iff.mpr numeral, int32?_eq_some_iff.mpr rfl⟩

/-! ## Digit by digit -/

/-- The number on one side of zero or the other. -/
def onSide (negative : Bool) (n : Nat) : Int := if negative then -n else n

def NumeralSign.isMinus : NumeralSign → Bool
  | none | plus => false
  | minus => true

theorem NumeralSign.signed_eq (sign : NumeralSign) (n : Nat) : sign.signed n = onSide sign.isMinus n := by
  cases sign <;> rfl

theorem onSide_mul_ten (negative : Bool) (n : Nat) : onSide negative (n * 10) = onSide negative n * 10 := by
  cases negative <;> simp [onSide]

theorem int32?_onSide_eq_none {negative : Bool} {m n : Nat} (out : int32? (onSide negative m) = none) (le : m ≤ n) :
    int32? (onSide negative n) = none := by
  unfold int32? onSide at *
  rw [ite_eq_right_iff] at out ⊢
  intro fits
  refine absurd (out ?_) nofun
  cases negative <;> simp only [Bool.false_eq_true, ite_true, ite_false] at fits ⊢ <;> omega

/-- What some number comes to when further digits are written after it. -/
def digitsFrom (m : Nat) (chars : List Char) : Nat := chars.foldl (fun n c => n * 10 + (c.toNat - '0'.toNat)) m

theorem le_digitsFrom (m : Nat) (chars : List Char) : m ≤ digitsFrom m chars := by
  induction chars generalizing m with
  | nil => exact Nat.le_refl m
  | cons c chars ih => exact Nat.le_trans (by omega) (ih (m * 10 + (c.toNat - '0'.toNat)))

section Steps

variable {negative : Bool} {m : Nat} {w : Int32}

/-- A digit fits where the number with it fits: ten times the number so far is no farther from zero. -/
theorem takeDigit_eq (so_far : w.toInt = onSide negative m) (c : Char) :
    takeDigit negative w c =
      if c.isDigit then int32? (onSide negative (m * 10 + (c.toNat - '0'.toNat))) else none := by
  unfold takeDigit
  cases digit : c.isDigit with
  | false => rfl
  | true =>
    rw [so_far, ← onSide_mul_ten]
    cases tens : int32? (onSide negative (m * 10)) with
    | none =>
      rw [int32?_onSide_eq_none tens (Nat.le_add_right _ _)]
      rfl
    | some t =>
      have t_eq := int32?_eq_some_iff.mp tens
      have sum_eq : ∀ d : Nat, (if negative then t.toInt - d else t.toInt + d) = onSide negative (m * 10 + d) := by
        intro d
        rw [t_eq]
        unfold onSide
        cases negative <;> simp only [Bool.false_eq_true, ite_true, ite_false] <;> omega
      rw [← sum_eq]
      rfl

theorem foldlM_takeDigit (so_far : w.toInt = onSide negative m) (chars : List Char) :
    chars.foldlM (takeDigit negative) w =
      if chars.all Char.isDigit then int32? (onSide negative (digitsFrom m chars)) else none := by
  induction chars generalizing m w with
  | nil => exact (int32?_eq_some_iff.mpr so_far).symm
  | cons c chars ih =>
    rw [List.foldlM_cons, takeDigit_eq so_far, List.all_cons]
    cases digit : c.isDigit with
    | false => rfl
    | true =>
      rw [Bool.true_and, if_pos rfl]
      cases next : int32? (onSide negative (m * 10 + (c.toNat - '0'.toNat))) with
      | some w' => exact ih (int32?_eq_some_iff.mp next)
      | none =>
        -- Whatever digits follow, the number stays out of range.
        have out := int32?_onSide_eq_none next (le_digitsFrom _ chars)
        change none = if chars.all Char.isDigit then int32? (onSide negative (digitsFrom _ chars)) else none
        rw [out, ite_self]

end Steps

theorem takeDigits_eq (negative : Bool) (chars : List Char) :
    takeDigits negative chars = ((digits? chars).map (onSide negative)).bind int32? := by
  have zero : (0 : Int32).toInt = onSide negative 0 := by cases negative <;> rfl
  unfold takeDigits digits?
  rw [foldlM_takeDigit zero]
  cases chars with
  | nil => rfl
  | cons c chars =>
    simp only [List.isEmpty_cons, Bool.not_false, Bool.true_and, Bool.false_eq_true, ite_false]
    split <;> rfl

/-- It makes no difference whether each digit or the number as a whole has to fit. -/
theorem readInt_eq (text : String) : readInt text = int? text := by
  have split_eq : readInt text =
      takeDigits (splitSign text.toList).1.isMinus (splitSign text.toList).2 := by
    unfold readInt
    generalize text.toList = chars
    split
    case h_1 => rfl
    case h_2 => rfl
    case h_3 minus plus => rw [splitSign_of_ne minus plus]; rfl
  have signed_eq : (splitSign text.toList).1.signed = onSide (splitSign text.toList).1.isMinus :=
    funext (NumeralSign.signed_eq _)
  rw [split_eq, takeDigits_eq, int?_eq, number?, signed_eq]

/-- There is one number more below zero than above. -/
example : readInt "-2147483648" = some (-0x80000000) ∧ readInt "+2147483648" = none := by decide +kernel

/-! ## The text of a value -/

namespace Value

/-- Nothing of the value has to be cut. -/
def Short (v : Value) : Prop := ∀ s, v = .string s → Utf8.byteCount s ≤ textLimit

theorem parse_text (v : Value) : v.type.parse v.text = .ok v.fit := by
  cases v with
  | int n => exact ColumnType.parse_text rfl
  | string s => rfl

theorem eq_of_text_eq {v w : Value} (same : v.type = w.type) (short : v.Short) (short' : w.Short)
    (text_eq : v.text = w.text) : v = w := by
  have read := v.parse_text
  rw [text_eq, same, w.parse_text, fit_eq_self_iff.mpr short, fit_eq_self_iff.mpr short', Except.ok.injEq] at read
  exact read.symm

theorem parse_int_eq_ok_iff {text : String} {v : Value} :
    ColumnType.int.parse text = .ok v ↔ ∃ m : Int32, v = .int m ∧ Numeral text m.toInt := by
  simp only [← int?_eq_some_iff, ColumnType.parse]
  cases int? text with
  | none => simp
  | some m => simp [eq_comm]

theorem parse_int_cases (text : String) :
    (∃ v, ColumnType.int.parse text = .ok v) ∨
      ColumnType.int.parse text = .error (.typeMismatch ColumnType.int.text (Quoted.quote text)) := by
  unfold ColumnType.parse
  cases int? text with
  | none => exact .inr rfl
  | some m => exact .inl ⟨_, rfl⟩

/-- A value is read back from its text as what is kept of it, so short values of one type have different texts. An
integer is read from a text just when it is a sign or none before one decimal digit or more, and the number that is
written there fits 32 bits, whether that is asked of the number alone or of each step; every other text is refused. So
the key of a group gives back the grouping value of its rows. -/
theorem text_faithful :
    (∀ v : Value, v.type.parse v.text = .ok v.fit) ∧
      (∀ v w : Value, v.type = w.type → v.Short → w.Short → v.text = w.text → v = w) ∧
      (∀ text v, ColumnType.int.parse text = .ok v ↔ ∃ m : Int32, v = .int m ∧ Numeral text m.toInt) ∧
      (∀ text, (∃ v, ColumnType.int.parse text = .ok v) ↔
        ∃ n, Numeral text n ∧ -0x80000000 ≤ n ∧ n ≤ 0x7FFFFFFF) ∧
      (∀ text, (∃ v, ColumnType.int.parse text = .ok v) ∨
        ColumnType.int.parse text = .error (.typeMismatch ColumnType.int.text (Quoted.quote text))) ∧
      (∀ text, readInt text = int? text) ∧
      ∀ (row : Row) (column : Nat) (v : Value), row.value column = .ok v →
        Grouping.key ⟨some column, some v.type⟩ row = .ok v.text ∧
          Grouping.valueOfKey ⟨some column, some v.type⟩ v.text = .ok [v.fit] := by
  refine ⟨parse_text, fun v w => eq_of_text_eq, fun text v => parse_int_eq_ok_iff, ?range, parse_int_cases, readInt_eq,
    ?key⟩
  case range =>
    intro text
    constructor
    · rintro ⟨v, read⟩
      obtain ⟨m, -, numeral⟩ := parse_int_eq_ok_iff.mp read
      exact ⟨m.toInt, numeral, m.le_toInt, Int.le_of_lt_add_one m.toInt_lt⟩
    · rintro ⟨n, numeral, ge, le⟩
      have back : (Int32.ofInt n).toInt = n := Int32.toInt_ofInt_of_le ge (Int.lt_add_one_of_le le)
      exact ⟨_, parse_int_eq_ok_iff.mpr ⟨Int32.ofInt n, rfl, back.symm ▸ numeral⟩⟩
  case key =>
    intro row column v value_eq
    constructor
    · simp only [Grouping.key, value_eq, bind, Except.bind, if_pos]
      rfl
    · exact congrArg (Except.map fun v => [v]) v.parse_text

theorem text_faithful_of_leading_zeros :
    Numeral "-002147483648" (-0x80000000) ∧ ColumnType.int.parse "-002147483648" = .ok (.int Int32.minValue) := by
  have digits : DigitsOf "002147483648".toList 2147483648 := digits?_eq_some_iff.mp (by decide +kernel)
  have numeral : Numeral "-002147483648" (-0x80000000) := ⟨.minus, _, _, rfl, digits, rfl⟩
  obtain ⟨-, -, reads, -⟩ := text_faithful
  exact ⟨numeral, (reads _ _).mpr ⟨Int32.minValue, rfl, numeral⟩⟩

end Value

end RowStore
