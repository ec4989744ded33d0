import RowStore.Value

/-!
# The bytes of a value

Every value of a type takes the same number of bytes: an integer four, a text its length and its bytes, filled up with
zeros. A text that is too long is cut before it is written.
-/

namespace RowStore

/-- The four bytes of a word, most significant first. -/
def wordBytes (w : UInt32) : List UInt8 :=
  [UInt8.ofNat (w.toNat / 0x1000000), UInt8.ofNat (w.toNat / 0x10000), UInt8.ofNat (w.toNat / 0x100),
    UInt8.ofNat w.toNat]

/-- The word that bytes write, most significant first. -/
def wordOfBytes (bytes : List UInt8) : UInt32 :=
  UInt32.ofNat (bytes.foldl (fun n b => n * 256 + b.toNat) 0)

@[simp] theorem length_wordBytes (w : UInt32) : (wordBytes w).length = 4 := rfl

@[simp] theorem wordOfBytes_wordBytes (w : UInt32) : wordOfBytes (wordBytes w) = w := by
  apply UInt32.toNat_inj.mp
  have := w.toNat_lt
  simp only [wordOfBytes, wordBytes, List.foldl_cons, List.foldl_nil, UInt8.toNat_ofNat',
    UInt32.toNat_ofNat']
  omega

namespace Value

def encode : Value → List UInt8
  | .int n => wordBytes n.toUInt32
  | .string s =>
    let bytes := Utf8.encode (Utf8.truncate textLimit s)
    wordBytes (UInt32.ofNat bytes.length) ++ bytes ++ List.replicate (textLimit - bytes.length) 0

/-- Reads a value of the type from the front of `bytes`. There are none in fewer bytes than the type takes, nor where
the length of a text exceeds the limit. -/
def decode? (t : ColumnType) (bytes : List UInt8) : Option Value :=
  let front := bytes.take t.width
  if front.length < t.width then none
  else match t with
    | .int => some (.int (wordOfBytes front).toInt32)
    | .string =>
      let length := (wordOfBytes (front.take 4)).toNat
      if textLimit < length then none
      else some (.string (Utf8.decodeLossy ((front.drop 4).take length)))

theorem length_encode_truncate_le (s : String) :
    (Utf8.encode (Utf8.truncate textLimit s)).length ≤ textLimit := by
  simpa [Utf8.encode, Utf8.truncate] using Utf8.length_encodeChars_takeBytes textLimit s.toList

@[simp] theorem length_encode (v : Value) : v.encode.length = v.type.width := by
  cases v with
  | int n => rfl
  | string s =>
    have := length_encode_truncate_le s
    simp only [encode, List.length_append, length_wordBytes, List.length_replicate, type,
      ColumnType.width]
    omega

theorem type_of_decode? {t : ColumnType} {bytes : List UInt8} {v : Value}
    (h : decode? t bytes = some v) : v.type = t := by
  cases t with
  | int =>
    simp only [decode?] at h
    split at h
    · cases h
    · cases h; rfl
  | string =>
    simp only [decode?] at h
    split at h
    · cases h
    · split at h
      · cases h
      · cases h; rfl

end Value

end RowStore
