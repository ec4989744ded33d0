/-!
# UTF-8

The bytes of a text, the longest beginning of a text that fits a number of bytes, and a decoder that never fails:
every maximal run of bytes that starts no character is read as one replacement character.
-/

namespace RowStore.Utf8

/-! ## Encoding -/

def encodeChars (chars : List Char) : List UInt8 := chars.flatMap String.utf8EncodeChar

def encode (text : String) : List UInt8 := encodeChars text.toList

@[simp] theorem encodeChars_nil : encodeChars [] = [] := rfl

@[simp] theorem encodeChars_cons (c : Char) (chars : List Char) :
    encodeChars (c :: chars) = String.utf8EncodeChar c ++ encodeChars chars := by
  simp [encodeChars]

@[simp] theorem encodeChars_append (xs ys : List Char) :
    encodeChars (xs ++ ys) = encodeChars xs ++ encodeChars ys := by
  simp [encodeChars]

def byteCount (text : String) : Nat := (encode text).length

/-! ## Searching -/

/-- Whether the bytes `part` stand somewhere among `bytes`, one after another. -/
def occurs (part : List UInt8) : List UInt8 → Bool
  | [] => part.isEmpty
  | b :: rest => part.isPrefixOf (b :: rest) || occurs part rest

theorem occurs_iff_isInfix {part bytes : List UInt8} : occurs part bytes = true ↔ part <:+: bytes := by
  induction bytes with
  | nil => simp [occurs]
  | cons b rest ih => simp [occurs, List.infix_cons_iff, ih]

/-! ## Cutting to a number of bytes -/

/-- The longest beginning that takes at most `limit` bytes and splits no character. -/
def takeBytes : Nat → List Char → List Char
  | _, [] => []
  | limit, c :: rest =>
    if c.utf8Size ≤ limit then c :: takeBytes (limit - c.utf8Size) rest else []

/-- Cuts a text to at most `limit` bytes, between two characters. -/
def truncate (limit : Nat) (text : String) : String := String.ofList (takeBytes limit text.toList)

theorem takeBytes_isPrefix (limit : Nat) (chars : List Char) : takeBytes limit chars <+: chars := by
  induction chars generalizing limit with
  | nil => simp [takeBytes]
  | cons c rest ih =>
    rw [takeBytes]
    split
    · exact (List.prefix_cons_inj c).mpr (ih _)
    · exact List.nil_prefix

theorem length_encodeChars_takeBytes (limit : Nat) (chars : List Char) :
    (encodeChars (takeBytes limit chars)).length ≤ limit := by
  induction chars generalizing limit with
  | nil => simp [takeBytes]
  | cons c rest ih =>
    rw [takeBytes]
    split
    · have := ih (limit - c.utf8Size)
      simp only [encodeChars_cons, List.length_append, String.length_utf8EncodeChar]
      omega
    · simp

theorem takeBytes_of_fits {limit : Nat} {chars : List Char}
    (h : (encodeChars chars).length ≤ limit) : takeBytes limit chars = chars := by
  induction chars generalizing limit with
  | nil => simp [takeBytes]
  | cons c rest ih =>
    simp only [encodeChars_cons, List.length_append, String.length_utf8EncodeChar] at h
    rw [takeBytes, if_pos (by omega), ih (by omega)]

/-! ## Decoding -/

/-- The character that stands for bytes that encode nothing. -/
def replacement : Char := '\uFFFD'

/-- A character whose first bytes have been read: the bits so far, the number of bytes still owed, and the bounds on
the next of them. -/
structure Pending where
  bits : Nat
  owed : Nat
  low : UInt8
  high : UInt8
  deriving DecidableEq

/-- What a first byte announces, if it starts a character of more than one byte. The bounds on the second byte keep
out overlong forms, surrogates and numbers past the last character. -/
def Pending.ofLead? (b : UInt8) : Option Pending :=
  if b < 0xC2 then none
  else if b < 0xE0 then some ⟨b.toNat % 32, 1, 0x80, 0xBF⟩
  else if b = 0xE0 then some ⟨0, 2, 0xA0, 0xBF⟩
  else if b = 0xED then some ⟨13, 2, 0x80, 0x9F⟩
  else if b < 0xF0 then some ⟨b.toNat % 16, 2, 0x80, 0xBF⟩
  else if b = 0xF0 then some ⟨0, 3, 0x90, 0xBF⟩
  else if b < 0xF4 then some ⟨b.toNat % 8, 3, 0x80, 0xBF⟩
  else if b = 0xF4 then some ⟨4, 3, 0x80, 0x8F⟩
  else none

/-- Reads a byte between two characters: what it completes, and what is pending after it. -/
def start (b : UInt8) : List Char × Option Pending :=
  if b < 0x80 then ([Char.ofNat b.toNat], none)
  else match Pending.ofLead? b with
    | some p => ([], some p)
    | none => ([replacement], none)

/-- Reads a byte inside a character. A byte out of bounds ends the ill-formed part before it and is read afresh. -/
def Pending.next (p : Pending) (b : UInt8) : List Char × Option Pending :=
  if p.low ≤ b ∧ b ≤ p.high then
    let bits := p.bits * 64 + b.toNat % 64
    if p.owed ≤ 1 then ([Char.ofNat bits], none) else ([], some ⟨bits, p.owed - 1, 0x80, 0xBF⟩)
  else
    (replacement :: (start b).1, (start b).2)

def step : Option Pending → UInt8 → List Char × Option Pending
  | none, b => start b
  | some p, b => p.next b

/-- The characters read from `bytes` after what is pending. -/
def decodeFrom : Option Pending → List UInt8 → List Char
  | none, [] => []
  | some _, [] => [replacement]
  | pending, b :: rest => (step pending b).1 ++ decodeFrom (step pending b).2 rest

/-- The text of any bytes, with one replacement character for each maximal ill-formed part. -/
def decodeLossy (bytes : List UInt8) : String := String.ofList (decodeFrom none bytes)

end RowStore.Utf8
