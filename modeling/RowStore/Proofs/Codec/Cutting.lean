import Mathlib.Order.Bounds.Basic
import RowStore.Proofs.Codec.Row
import RowStore.Value.Cutting

/-!
# Texts are cut alike everywhere

A number of bytes is a boundary just when whole characters take it, so counting back from the limit finds the longest
beginning of a text that has room. It is the one that the characters give, counted from the front. So a text is cut to
the same beginning wherever it is cut, and cutting it again changes nothing.
-/

namespace RowStore

namespace Utf8

variable {bytes back : List UInt8} {chars front : List Char} {limit n : Nat}

/-! ## Characters and boundaries -/

theorem isContinuation_ofNat : ∀ k < 64, isContinuation (UInt8.ofNat (k + 128)) = true := by decide

theorem not_isContinuation_ofNat : ∀ k < 128, isContinuation (UInt8.ofNat k) = false := by decide

theorem not_isContinuation_ofNat_add : ∀ k < 64, isContinuation (UInt8.ofNat (k + 192)) = false := by decide

theorem utf8EncodeChar_eq (c : Char) :
    ∃ lead tail, String.utf8EncodeChar c = lead :: tail ∧ isContinuation lead = false ∧
      ∀ b ∈ tail, isContinuation b = true := by
  simp only [String.utf8EncodeChar]
  split
  · next small => exact ⟨_, _, rfl, not_isContinuation_ofNat _ (by omega), nofun⟩
  · split
    · refine ⟨_, _, rfl, not_isContinuation_ofNat_add _ (by omega), ?_⟩
      simp only [List.mem_singleton, forall_eq]
      exact isContinuation_ofNat _ (by omega)
    · split
      · refine ⟨_, _, rfl, not_isContinuation_ofNat_add (c.val.toNat / 4096 % 16 + 32) (by omega), ?_⟩
        simp only [List.mem_cons, List.not_mem_nil, or_false, forall_eq_or_imp, forall_eq]
        exact ⟨isContinuation_ofNat _ (by omega), isContinuation_ofNat _ (by omega)⟩
      · refine ⟨_, _, rfl, not_isContinuation_ofNat_add (c.val.toNat / 262144 % 8 + 48) (by omega), ?_⟩
        simp only [List.mem_cons, List.not_mem_nil, or_false, forall_eq_or_imp, forall_eq]
        exact ⟨isContinuation_ofNat _ (by omega), isContinuation_ofNat _ (by omega), isContinuation_ofNat _ (by omega)⟩

theorem isBoundary_zero (bytes : List UInt8) : isBoundary bytes 0 = true := by
  cases bytes <;> simp [isBoundary]

theorem isBoundary_length (bytes : List UInt8) : isBoundary bytes bytes.length = true := by
  simp [isBoundary]

theorem le_length_of_isBoundary (h : isBoundary bytes n = true) : n ≤ bytes.length := by
  unfold isBoundary at h
  split at h
  · next b here => exact Nat.le_of_lt (List.getElem?_eq_some_iff.mp here).1
  · exact Nat.le_of_eq (by simpa using h)

theorem not_isContinuation_first {b : UInt8} (h : (encodeChars chars)[0]? = some b) : isContinuation b = false := by
  cases chars with
  | nil => cases h
  | cons c chars =>
    obtain ⟨lead, tail, char_eq, first, -⟩ := utf8EncodeChar_eq c
    rw [encodeChars_cons, char_eq] at h
    cases h
    exact first

theorem isBoundary_encodeChars_cons (c : Char) (chars : List Char) (n : Nat) :
    isBoundary (encodeChars (c :: chars)) n = true ↔
      n = 0 ∨ ∃ m, n = c.utf8Size + m ∧ isBoundary (encodeChars chars) m = true := by
  obtain ⟨lead, tail, char_eq, -, others⟩ := utf8EncodeChar_eq c
  have size_eq : c.utf8Size = tail.length + 1 := by
    rw [← String.length_utf8EncodeChar, char_eq, List.length_cons]
  rw [encodeChars_cons, char_eq, size_eq, List.cons_append]
  cases n with
  | zero => simp [isBoundary_zero]
  | succ k =>
    by_cases inside : k < tail.length
    · have continued := others _ (List.getElem_mem inside)
      have here : (lead :: (tail ++ encodeChars chars))[k + 1]? = some tail[k] := by
        rw [List.getElem?_cons_succ, List.getElem?_append_left inside, List.getElem?_eq_getElem inside]
      simp only [isBoundary, here, continued]
      constructor
      · intro impossible
        cases impossible
      · rintro (impossible | ⟨m, eq, -⟩) <;> omega
    · obtain ⟨m, rfl⟩ := Nat.exists_eq_add_of_le (Nat.le_of_not_lt inside)
      have here : (lead :: (tail ++ encodeChars chars))[tail.length + m + 1]? = (encodeChars chars)[m]? := by
        rw [List.getElem?_cons_succ, List.getElem?_append_right (Nat.le_add_right _ _), Nat.add_sub_cancel_left]
      have same : isBoundary (lead :: (tail ++ encodeChars chars)) (tail.length + m + 1) =
          isBoundary (encodeChars chars) m := by
        unfold isBoundary
        rw [here]
        cases at_m : (encodeChars chars)[m]? with
        | none =>
          rw [Bool.eq_iff_iff]
          simp only [List.length_cons, List.length_append, beq_iff_eq]
          omega
        | some b =>
          cases m with
          | zero => simp [not_isContinuation_first at_m]
          | succ m => simp
      rw [same]
      constructor
      · intro boundary
        exact .inr ⟨m, by omega, boundary⟩
      · rintro (impossible | ⟨m', eq, boundary⟩)
        · omega
        · cases (by omega : m = m')
          exact boundary

theorem isBoundary_encodeChars_iff :
    isBoundary (encodeChars chars) n = true ↔ ∃ front, front <+: chars ∧ (encodeChars front).length = n := by
  induction chars generalizing n with
  | nil =>
    constructor
    · intro h
      exact ⟨[], List.nil_prefix, (Nat.le_zero.mp (le_length_of_isBoundary h)).symm⟩
    · rintro ⟨front, prefix_nil, rfl⟩
      rw [List.prefix_nil.mp prefix_nil]
      rfl
  | cons c chars ih =>
    rw [isBoundary_encodeChars_cons]
    constructor
    · rintro (rfl | ⟨m, rfl, h⟩)
      · exact ⟨[], List.nil_prefix, rfl⟩
      · obtain ⟨front, isPrefix, rfl⟩ := ih.mp h
        refine ⟨c :: front, (List.prefix_cons_inj c).mpr isPrefix, ?_⟩
        rw [encodeChars_cons, List.length_append, String.length_utf8EncodeChar]
    · rintro ⟨front, isPrefix, rfl⟩
      cases front with
      | nil => exact .inl rfl
      | cons d front =>
        obtain ⟨rfl, rest⟩ := List.cons_prefix_cons.mp isPrefix
        refine .inr ⟨_, ?_, ih.mpr ⟨front, rest, rfl⟩⟩
        rw [encodeChars_cons, List.length_append, String.length_utf8EncodeChar]

/-! ## Counting back -/

theorem lastBoundary_eq_ok (bytes : List UInt8) (n : Nat) :
    ∃ last, lastBoundary bytes n = .ok last ∧ IsGreatest {k | k ≤ n ∧ isBoundary bytes k = true} last := by
  induction n with
  | zero => exact ⟨0, if_pos (isBoundary_zero bytes), ⟨Nat.le_refl 0, isBoundary_zero bytes⟩, fun k mem => mem.1⟩
  | succ n ih =>
    by_cases here : isBoundary bytes (n + 1) = true
    · exact ⟨n + 1, if_pos here, ⟨Nat.le_refl _, here⟩, fun k mem => mem.1⟩
    · obtain ⟨last, last_eq, ⟨le, boundary⟩, greatest⟩ := ih
      refine ⟨last, (if_neg here).trans last_eq, ⟨Nat.le_succ_of_le le, boundary⟩, ?_⟩
      rintro k ⟨k_le, k_boundary⟩
      have ne : k ≠ n + 1 := by
        rintro rfl
        exact here k_boundary
      exact greatest ⟨by omega, k_boundary⟩

theorem boundaryAtMost_eq_ok (limit : Nat) (bytes : List UInt8) :
    ∃ last, boundaryAtMost limit bytes = .ok last ∧ IsGreatest {k | k ≤ limit ∧ isBoundary bytes k = true} last := by
  by_cases short : bytes.length ≤ limit
  · refine ⟨bytes.length, if_pos short, ⟨short, isBoundary_length bytes⟩, ?_⟩
    rintro k ⟨-, boundary⟩
    exact le_length_of_isBoundary boundary
  · obtain ⟨last, last_eq, greatest⟩ := lastBoundary_eq_ok bytes limit
    exact ⟨last, (if_neg short).trans last_eq, greatest⟩

/-! ## The beginning that is kept -/

theorem length_encodeChars_le (h : front <+: chars) : (encodeChars front).length ≤ (encodeChars chars).length := by
  obtain ⟨rest, rfl⟩ := h
  rw [encodeChars_append, List.length_append]
  exact Nat.le_add_right _ _

theorem prefix_takeBytes (isPrefix : front <+: chars) (room : (encodeChars front).length ≤ limit) :
    front <+: takeBytes limit chars := by
  induction chars generalizing front limit with
  | nil => exact isPrefix
  | cons c chars ih =>
    cases front with
    | nil => exact List.nil_prefix
    | cons d front =>
      obtain ⟨rfl, rest⟩ := List.cons_prefix_cons.mp isPrefix
      rw [encodeChars_cons, List.length_append, String.length_utf8EncodeChar] at room
      rw [takeBytes, if_pos (by omega)]
      exact (List.prefix_cons_inj d).mpr (ih rest (by omega))

theorem isGreatest_takeBytes (limit : Nat) (chars : List Char) :
    IsGreatest {n | n ≤ limit ∧ isBoundary (encodeChars chars) n = true}
      (encodeChars (takeBytes limit chars)).length := by
  refine ⟨⟨length_encodeChars_takeBytes limit chars, ?_⟩, ?_⟩
  · exact isBoundary_encodeChars_iff.mpr ⟨_, takeBytes_isPrefix limit chars, rfl⟩
  · rintro n ⟨le, boundary⟩
    obtain ⟨front, isPrefix, rfl⟩ := isBoundary_encodeChars_iff.mp boundary
    exact length_encodeChars_le (prefix_takeBytes isPrefix le)

theorem encode_truncate (limit : Nat) (s : String) :
    encode (truncate limit s) = encodeChars (takeBytes limit s.toList) := by
  rw [encode, truncate, String.toList_ofList]

theorem boundaryAtMost_encode (limit : Nat) (s : String) :
    boundaryAtMost limit (encode s) = .ok (byteCount (truncate limit s)) := by
  obtain ⟨last, last_eq, greatest⟩ := boundaryAtMost_eq_ok limit (encode s)
  rw [last_eq, byteCount, encode_truncate, greatest.unique (isGreatest_takeBytes limit s.toList)]

/-- The fourth byte is one of the three of the last character. -/
example : boundaryAtMost 4 (encode "aé€") = .ok 3 := by rfl

theorem take_encode (limit : Nat) (s : String) :
    (encode s).take (byteCount (truncate limit s)) = encode (truncate limit s) := by
  have kept := takeBytes_isPrefix limit s.toList
  rw [byteCount, encode_truncate, encode]
  generalize takeBytes limit s.toList = front at kept
  obtain ⟨rest, split⟩ := kept
  rw [← split, encodeChars_append, List.take_left' rfl]

theorem cut_eq_truncate (limit : Nat) (s : String) : cut limit s = .ok (truncate limit s) := by
  rw [cut, boundaryAtMost_encode, Except.map, take_encode, decodeLossy_encode]

/-- The second text is the longest beginning of the first that takes at most `limit` bytes, in characters and in
bytes. -/
structure Keeps (limit : Nat) (s kept : String) : Prop where
  isPrefix : kept.toList <+: s.toList
  longest : ∀ front, front <+: s.toList → (encodeChars front).length ≤ limit → front <+: kept.toList
  bytes_eq : encode kept = (encode s).take (byteCount kept)
  greatest : IsGreatest {n | n ≤ limit ∧ isBoundary (encode s) n = true} (byteCount kept)

theorem keeps_truncate (limit : Nat) (s : String) : Keeps limit s (truncate limit s) where
  isPrefix := by
    rw [truncate, String.toList_ofList]
    exact takeBytes_isPrefix limit s.toList
  longest front isPrefix room := by
    rw [truncate, String.toList_ofList]
    exact prefix_takeBytes isPrefix room
  bytes_eq := (take_encode limit s).symm
  greatest := by
    rw [byteCount, encode_truncate]
    exact isGreatest_takeBytes limit s.toList

end Utf8

/-! ## Values -/

namespace Value

theorem ofText_eq (s : String) : ofText s = .ok (fit (.string s)) := by
  rw [ofText, Utf8.cut_eq_truncate]
  rfl

theorem fitted_eq (v : Value) : v.fitted = .ok v.fit := by
  cases v with
  | int n => rfl
  | string s =>
    rw [fitted]
    split
    · exact ofText_eq s
    · next short => rw [fit, Utf8.truncate_eq_iff.mpr (Nat.le_of_not_lt short)]

theorem written_eq (v : Value) : v.written = .ok v.encode := by
  cases v with
  | int n => rfl
  | string s =>
    rw [written, Utf8.boundaryAtMost_encode, Except.map, Utf8.take_encode]
    rfl

theorem encode_fit (v : Value) : v.fit.encode = v.encode := by
  cases v with
  | int n => rfl
  | string s => rw [fit, encode, encode, truncate_truncate]

theorem read?_encode (v : Value) (rest : List UInt8) :
    read? v.type (v.encode ++ rest) = some (v.fit, v.type.width) := by
  rw [read?, decode?_encode]
  rfl

end Value

namespace Row

variable {row : Row} {index : Nat} {v : Value}

theorem set_eq_fit (type_eq : row.schema.types[index]? = some v.type) (lt : index < row.arity) :
    row.set index v = .ok { row with values := row.values.set index v.fit } := by
  have column_eq : row.schema.columnType index = .ok v.type := by
    rw [Schema.types, List.getElem?_map] at type_eq
    obtain ⟨column, here, type_eq⟩ := Option.map_eq_some_iff.mp type_eq
    rw [Schema.columnType, Schema.column, here, ← type_eq]
    rfl
  unfold set
  simp only [column_eq, ne_eq, not_true, ite_false, if_pos lt]

end Row

/-- A value is written with the width of its type, and read from there, whatever follows, as what is kept of it. That is
what a row keeps of it, and of a text what a value made of it has: the longest beginning that has room. Nothing more is
cut of it, and it is written with the same bytes. -/
theorem Value.cut_alike (v : Value) :
    (v.written = .ok v.encode ∧ v.encode.length = v.type.width) ∧
      (∀ rest, read? v.type (v.encode ++ rest) = some (v.fit, v.type.width)) ∧
      v.fitted = .ok v.fit ∧ v.fit.fit = v.fit ∧ v.fit.written = v.written ∧
      (∀ (schema : Schema) (values : List Value) (index : Nat), values[index]? = some v →
        values.map type = schema.types →
        ∃ row, Row.ofValues schema values = .ok row ∧ row.values[index]? = some v.fit) ∧
      (∀ (row : Row) (index : Nat), row.schema.types[index]? = some v.type → index < row.arity →
        ∃ row', row.set index v = .ok row' ∧ row'.values[index]? = some v.fit) ∧
      ∀ s, v = .string s →
        ∃ kept, v.fit = .string kept ∧ ofText s = .ok (.string kept) ∧ Utf8.Keeps textLimit s kept := by
  refine ⟨⟨written_eq v, length_encode v⟩, read?_encode v, fitted_eq v, fit_fit v, ?again, ?made, ?set, ?kept⟩
  case again => rw [written_eq, written_eq, encode_fit]
  case made =>
    intro schema values index here types_eq
    refine ⟨_, Row.ofValues_eq_fit types_eq, ?_⟩
    rw [List.getElem?_map, here, Option.map_some]
  case set =>
    intro row index type_eq lt
    exact ⟨_, Row.set_eq_fit type_eq lt, List.getElem?_set_self lt⟩
  case kept =>
    rintro s rfl
    exact ⟨_, rfl, ofText_eq s, Utf8.keeps_truncate textLimit s⟩

end RowStore
