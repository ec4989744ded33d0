import RowStore.Proofs.Codec.Flags

/-!
# What the bytes of a page have to be

Any bytes are those of a page but for one thing: in a used slot, a text has to fit its column. Nothing is read of a slot
that is not used, of a text after its length, of the flags past the last slot, or of what fills the page.
-/

namespace RowStore

/-! ## Rows -/

/-- Where the bytes of a column begin among those of its row. -/
def Schema.columnStart (types : List ColumnType) (k : Nat) : Nat := widthOf (types.take k)

@[simp] theorem Schema.columnStart_zero (types : List ColumnType) : columnStart types 0 = 0 := rfl

@[simp] theorem Schema.columnStart_succ (t : ColumnType) (types : List ColumnType) (k : Nat) :
    columnStart (t :: types) (k + 1) = t.width + columnStart types k := rfl

theorem Schema.columnStart_add_le {types : List ColumnType} {k k' : Nat} {t : ColumnType} (column : types[k]? = some t)
    (lt : k < k') : columnStart types k + t.width ≤ columnStart types k' := by
  induction types generalizing k k' with
  | nil => cases column
  | cons first types ih =>
    obtain ⟨k', rfl⟩ := Nat.exists_eq_succ_of_ne_zero (Nat.ne_of_gt (Nat.zero_lt_of_lt lt))
    rw [Nat.succ_eq_add_one, columnStart_succ]
    cases k with
    | zero =>
      cases column
      rw [columnStart_zero]
      omega
    | succ k =>
      have := ih column (Nat.lt_of_succ_lt_succ lt)
      rw [columnStart_succ]
      omega

theorem Schema.columnStart_add_le_width {types : List ColumnType} {k : Nat} {t : ColumnType}
    (column : types[k]? = some t) : columnStart types k + t.width ≤ widthOf types := by
  have lt := (List.getElem?_eq_some_iff.mp column).1
  have := columnStart_add_le column lt
  rwa [columnStart, columnStart, List.take_length, ← columnStart] at this

/-- The number that the four bytes at a place write. -/
def lengthAt (bytes : List UInt8) (place : Nat) : Nat := (wordOfBytes ((bytes.drop place).take 4)).toNat

theorem lengthAt_drop (bytes : List UInt8) (first place : Nat) :
    lengthAt (bytes.drop first) place = lengthAt bytes (first + place) := by
  rw [lengthAt, List.drop_drop, lengthAt]

theorem Value.decode?_int (bytes : List UInt8) :
    decode? .int bytes =
      if bytes.length < 4 then none else some (.int (wordOfBytes ((bytes.drop 0).take 4)).toInt32) := by
  have width_eq : ColumnType.int.width = 4 := rfl
  have short_iff : (bytes.take 4).length < 4 ↔ bytes.length < 4 := by rw [List.length_take]; omega
  simp only [decode?, width_eq, short_iff, List.drop_zero]

theorem Value.decode?_string (bytes : List UInt8) :
    decode? .string bytes =
      if bytes.length < 132 then none
      else if textLimit < lengthAt bytes 0 then none
      else some (.string (Utf8.decodeLossy ((bytes.drop 4).take (lengthAt bytes 0)))) := by
  have width_eq : ColumnType.string.width = 132 := rfl
  have short_iff : (bytes.take 132).length < 132 ↔ bytes.length < 132 := by rw [List.length_take]; omega
  have length_eq : (wordOfBytes ((bytes.take 132).take 4)).toNat = lengthAt bytes 0 := by
    rw [List.take_take]
    rfl
  simp only [decode?, width_eq, short_iff, length_eq]
  split
  · rfl
  · split
    · rfl
    · next within =>
      have : textLimit = 128 := rfl
      rw [List.drop_take, List.take_take, Nat.min_eq_left (by omega)]

theorem Value.decode?_eq_none_iff {t : ColumnType} {bytes : List UInt8} (enough : t.width ≤ bytes.length) :
    decode? t bytes = none ↔ t = .string ∧ textLimit < lengthAt bytes 0 := by
  cases t with
  | int =>
    have long : ¬bytes.length < 4 := Nat.not_lt.mpr enough
    simp [decode?_int, if_neg long]
  | string =>
    have long : ¬bytes.length < 132 := Nat.not_lt.mpr enough
    simp [decode?_string, if_neg long]

theorem Row.decodeValues?_eq_none_iff {types : List ColumnType} {bytes : List UInt8}
    (enough : Schema.widthOf types ≤ bytes.length) :
    decodeValues? types bytes = none ↔
      ∃ k, types[k]? = some .string ∧ textLimit < lengthAt bytes (Schema.columnStart types k) := by
  induction types generalizing bytes with
  | nil => simp [decodeValues?]
  | cons t types ih =>
    rw [Schema.widthOf] at enough
    have here : t.width ≤ bytes.length := by omega
    have there : Schema.widthOf types ≤ (bytes.drop t.width).length := by rw [List.length_drop]; omega
    have split_none : decodeValues? (t :: types) bytes = none ↔
        Value.decode? t bytes = none ∨ decodeValues? types (bytes.drop t.width) = none := by
      rw [decodeValues?]
      cases Value.decode? t bytes <;> cases decodeValues? types (bytes.drop t.width) <;> simp
    rw [split_none, Value.decode?_eq_none_iff here, ih there]
    constructor
    · rintro (⟨rfl, long⟩ | ⟨k, column, long⟩)
      · exact ⟨0, rfl, long⟩
      · rw [lengthAt_drop] at long
        exact ⟨k + 1, column, long⟩
    · rintro ⟨k, column, long⟩
      cases k with
      | zero => exact .inl ⟨Option.some.inj column, long⟩
      | succ k =>
        refine .inr ⟨k, column, ?_⟩
        rw [lengthAt_drop]
        exact long

/-! ## What is read of a row -/

/-- The byte belongs to a text, and lies past the text's length. -/
def Row.Unread (types : List ColumnType) (bytes : List UInt8) (place : Nat) : Prop :=
  ∃ k, types[k]? = some .string ∧
    Schema.columnStart types k + 4 + lengthAt bytes (Schema.columnStart types k) ≤ place ∧
    place < Schema.columnStart types k + ColumnType.string.width

/-- The bytes agree wherever they are read. -/
def Row.SameRead (types : List ColumnType) (bytes bytes' : List UInt8) : Prop :=
  ∀ place < Schema.widthOf types, ¬Row.Unread types bytes place → bytes[place]? = bytes'[place]?

theorem Row.SameRead.head {t : ColumnType} {types : List ColumnType} {bytes bytes' : List UInt8}
    (h : SameRead (t :: types) bytes bytes') {place : Nat} (lt : place < t.width)
    (read : t = .string → place < 4 + lengthAt bytes 0) : bytes[place]? = bytes'[place]? := by
  refine h place (by rw [Schema.widthOf]; omega) ?_
  rintro ⟨k, column, from_, -⟩
  cases k with
  | zero =>
    have := read (Option.some.inj column)
    rw [Schema.columnStart_zero] at from_
    omega
  | succ k =>
    rw [Schema.columnStart_succ] at from_
    omega

theorem Row.SameRead.tail {t : ColumnType} {types : List ColumnType} {bytes bytes' : List UInt8}
    (h : SameRead (t :: types) bytes bytes') : SameRead types (bytes.drop t.width) (bytes'.drop t.width) := by
  intro place lt read
  rw [List.getElem?_drop, List.getElem?_drop]
  refine h _ (by rw [Schema.widthOf]; omega) ?_
  rintro ⟨k, column, from_, until_⟩
  cases k with
  | zero =>
    cases column
    rw [Schema.columnStart_zero] at until_
    omega
  | succ k =>
    rw [Schema.columnStart_succ] at from_ until_
    refine read ⟨k, column, ?_, by omega⟩
    rw [lengthAt_drop]
    omega

theorem take_drop_congr {bytes bytes' : List UInt8} {first count : Nat}
    (same : ∀ place, first ≤ place → place < first + count → bytes[place]? = bytes'[place]?) :
    (bytes.drop first).take count = (bytes'.drop first).take count := by
  apply List.ext_getElem?
  intro i
  rw [List.getElem?_take, List.getElem?_take, List.getElem?_drop, List.getElem?_drop]
  split
  · exact same (first + i) (by omega) (by omega)
  · rfl

theorem Value.decode?_congr {t : ColumnType} {types : List ColumnType} {bytes bytes' : List UInt8}
    (same : Row.SameRead (t :: types) bytes bytes') (length_eq : bytes.length = bytes'.length) :
    decode? t bytes = decode? t bytes' := by
  have word : (bytes.drop 0).take 4 = (bytes'.drop 0).take 4 := by
    apply take_drop_congr
    intro place _ lt
    have four : 4 ≤ t.width := by cases t <;> decide
    exact same.head (by omega) fun _ => by omega
  cases t with
  | int => rw [decode?_int, decode?_int, length_eq, word]
  | string =>
    have length_read : lengthAt bytes 0 = lengthAt bytes' 0 := by rw [lengthAt, word, lengthAt]
    rw [decode?_string, decode?_string, length_eq, ← length_read]
    split
    · rfl
    · split
      · rfl
      · next within =>
        have limit : textLimit = 128 := rfl
        have width_eq : ColumnType.string.width = 132 := rfl
        have text : (bytes.drop 4).take (lengthAt bytes 0) = (bytes'.drop 4).take (lengthAt bytes 0) := by
          apply take_drop_congr
          intro place _ lt
          exact same.head (by omega) fun _ => lt
        rw [text]

theorem Row.decodeValues?_congr {types : List ColumnType} {bytes bytes' : List UInt8}
    (same : SameRead types bytes bytes') (length_eq : bytes.length = bytes'.length) :
    decodeValues? types bytes = decodeValues? types bytes' := by
  induction types generalizing bytes bytes' with
  | nil => rfl
  | cons t types ih =>
    rw [decodeValues?, decodeValues?, Value.decode?_congr same length_eq, ih same.tail (by simp [length_eq])]

/-! ## Slots -/

namespace Layout

/-- Where the bytes of a slot begin. -/
def slotStart (size width index : Nat) : Nat := headerBytes (slotCount size width) + index * width

theorem slotStart_add_le {size width index : Nat} (lt : index < slotCount size width) :
    slotStart size width index + width ≤ size := by
  have room := room_le size width
  have := Nat.mul_le_mul_right width (Nat.succ_le_of_lt lt)
  rw [Nat.succ_mul] at this
  unfold slotStart
  omega

theorem slotStart_add_le_slotStart (size width : Nat) {index index' : Nat} (lt : index < index') :
    slotStart size width index + width ≤ slotStart size width index' := by
  have := Nat.mul_le_mul_right width (Nat.succ_le_of_lt lt)
  rw [Nat.succ_mul] at this
  unfold slotStart
  omega

theorem slot_unique {size width index index' place : Nat} (from_ : slotStart size width index ≤ place)
    (until_ : place < slotStart size width index + width) (from_' : slotStart size width index' ≤ place)
    (until_' : place < slotStart size width index' + width) : index = index' := by
  rcases Nat.lt_trichotomy index index' with lt | same | lt
  · have := slotStart_add_le_slotStart size width lt
    omega
  · exact same
  · have := slotStart_add_le_slotStart size width lt
    omega

theorem flagAt_take {bytes : List UInt8} {count index : Nat} (lt : index < 8 * count) :
    flagAt (bytes.take count) index = flagAt bytes index := by
  have : index / 8 < count := by omega
  rw [flagAt, flagAt, List.getD_eq_getElem?_getD, List.getD_eq_getElem?_getD, List.getElem?_take, if_pos this]

theorem take_unpackFlags {bytes : List UInt8} {slots : Nat} (enough : headerBytes slots ≤ bytes.length) :
    (unpackFlags (bytes.take (headerBytes slots))).take slots = (List.range slots).map (flagAt bytes) := by
  have le := le_headerBytes slots
  apply List.ext_getElem?
  intro index
  rw [List.getElem?_take, List.getElem?_map]
  split
  · next lt =>
    have lt' : index < 8 * headerBytes slots := by omega
    rw [getElem?_unpackFlags (by rw [List.length_take]; omega), flagAt_take lt', List.getElem?_range lt,
      Option.map_some]
  · next past => rw [List.getElem?_eq_none (by simpa using past), Option.map_none]

end Layout

namespace Page

variable {id : PageId} {schema : Schema}

theorem readSlot_eq_error_iff {index : Nat} {used : Bool} {part : List UInt8} {e : StoreError} :
    readSlot id schema index used part = .error e ↔
      used = true ∧ Row.decodeValues? schema.types part = none ∧
        e = .pageCorrupt id s!"slot {index} does not decode" := by
  unfold readSlot Row.decode?
  cases used with
  | false => simp
  | true => cases Row.decodeValues? schema.types part <;> simp [eq_comm]

theorem readSlots_cases {outcome : Nat → Except StoreError Slot} {index : Nat} {flags : List Bool} {bytes : List UInt8}
    (each : ∀ i used, flags[i]? = some used →
      readSlot id schema (index + i) used ((bytes.drop (i * schema.width)).take schema.width) = outcome i)
    (done : List Slot) :
    (∃ read, readSlots id schema index flags bytes done = .ok (done.reverse ++ read) ∧
      ∀ i < flags.length, ∃ slot, read[i]? = some slot ∧ outcome i = .ok slot) ∨
    ∃ i < flags.length, ∃ e, outcome i = .error e ∧ (∀ j < i, ∃ slot, outcome j = .ok slot) ∧
      readSlots id schema index flags bytes done = .error e := by
  induction flags generalizing index bytes done outcome with
  | nil => exact .inl ⟨[], by simp [readSlots], by simp⟩
  | cons used flags ih =>
    have first_eq : readSlot id schema index used (bytes.take schema.width) = outcome 0 := by
      simpa using each 0 used rfl
    have later : ∀ i used, flags[i]? = some used → readSlot id schema (index + 1 + i) used
        (((bytes.drop schema.width).drop (i * schema.width)).take schema.width) = outcome (i + 1) := by
      intro i used here
      have place : schema.width + i * schema.width = (i + 1) * schema.width := by rw [Nat.succ_mul, Nat.add_comm]
      rw [List.drop_drop, place, Nat.add_assoc, Nat.add_comm 1]
      exact each (i + 1) used here
    rw [readSlots, first_eq]
    cases first : outcome 0 with
    | error e => exact .inr ⟨0, Nat.zero_lt_succ _, e, first, by simp, rfl⟩
    | ok slot =>
      rcases ih later (slot :: done) with ⟨read, read_eq, kept⟩ | ⟨i, lt, e, failed, before, read_eq⟩
      · refine .inl ⟨slot :: read, by simpa using read_eq, ?_⟩
        intro i lt
        cases i with
        | zero => exact ⟨slot, rfl, first⟩
        | succ i => exact kept i (Nat.lt_of_succ_lt_succ lt)
      · refine .inr ⟨i + 1, Nat.succ_lt_succ lt, e, failed, ?_, read_eq⟩
        intro j j_lt
        cases j with
        | zero => exact ⟨slot, first⟩
        | succ j => exact before j (Nat.lt_of_succ_lt_succ j_lt)

/-- What is read of the slot at `index` where the slots begin at `first`. -/
def readAt (id : PageId) (schema : Schema) (bytes : List UInt8) (first index : Nat) : Except StoreError Slot :=
  readSlot id schema index (Layout.flagAt bytes index) ((bytes.drop (first + index * schema.width)).take schema.width)

theorem readContent_cases (id : PageId) (schema : Schema) (size : Nat) {count : Nat} {content : List UInt8}
    (enough : Layout.headerBytes count ≤ content.length) :
    (∃ page, readContent id schema size count content = .ok page ∧ ∀ index < count,
      ∃ slot, page.slots[index]? = some slot ∧ readAt id schema content (Layout.headerBytes count) index = .ok slot) ∨
    ∃ index < count, ∃ e, readAt id schema content (Layout.headerBytes count) index = .error e ∧
      (∀ before < index, ∃ slot, readAt id schema content (Layout.headerBytes count) before = .ok slot) ∧
      readContent id schema size count content = .error e := by
  have each : ∀ i used, ((List.range count).map (Layout.flagAt content))[i]? = some used →
      readSlot id schema (0 + i) used
        (((content.drop (Layout.headerBytes count)).drop (i * schema.width)).take schema.width) =
          readAt id schema content (Layout.headerBytes count) i := by
    intro i used here
    obtain ⟨number, number_eq, rfl⟩ := Option.map_eq_some_iff.mp ((List.getElem?_map ..).symm.trans here)
    obtain ⟨-, rfl⟩ := List.getElem?_eq_some_iff.mp number_eq
    rw [List.getElem_range, List.drop_drop, Nat.zero_add]
    rfl
  rw [readContent, Layout.take_unpackFlags enough]
  have length_eq : ((List.range count).map (Layout.flagAt content)).length = count := by simp
  rcases readSlots_cases each [] with ⟨read, read_eq, kept⟩ | ⟨index, lt, e, failed, before, read_eq⟩
  · rw [length_eq] at kept
    rw [read_eq]
    exact .inl ⟨_, rfl, kept⟩
  · rw [length_eq] at lt
    rw [read_eq]
    exact .inr ⟨index, lt, e, failed, before, rfl⟩

theorem readAt_take (id : PageId) (schema : Schema) (bytes : List UInt8) {count index : Nat} (lt : index < count) :
    readAt id schema (bytes.take (Layout.headerBytes count + count * schema.width)) (Layout.headerBytes count) index =
      readAt id schema bytes (Layout.headerBytes count) index := by
  have le := Layout.le_headerBytes count
  have within := Nat.mul_le_mul_right schema.width (Nat.succ_le_of_lt lt)
  rw [Nat.succ_mul] at within
  rw [readAt, readAt, Layout.flagAt_take (by omega), List.drop_take, List.take_take, Nat.min_eq_left (by omega)]

theorem decode_cases (id : PageId) (schema : Schema) {data : Bytes} (size_lt : data.length * 8 < UInt64.size) :
    let count := Layout.slotCount data.toList.length schema.width
    let read := readAt id schema data.toList (Layout.headerBytes count)
    (∃ page, decode id schema data = .ok page ∧
      ∀ index < count, ∃ slot, page.slots[index]? = some slot ∧ read index = .ok slot) ∨
    ∃ index < count, ∃ e, read index = .error e ∧ (∀ before < index, ∃ slot, read before = .ok slot) ∧
      decode id schema data = .error (.refused e) := by
  intro count read
  have room : Layout.headerBytes count + count * schema.width ≤ data.toList.length := Layout.room_le _ _
  have read_eq : ∀ index < count, readAt id schema (data.toList.take (Layout.headerBytes count + count * schema.width))
      (Layout.headerBytes count) index = read index :=
    fun index lt => readAt_take id schema data.toList lt
  have decode_eq : decode id schema data = Failure.ofCheck (readContent id schema data.toList.length count
      (data.toList.take (Layout.headerBytes count + count * schema.width))) := by
    rw [← Bytes.length_toList] at size_lt
    simp only [decode, Layout.slotsFor, ← Bytes.length_toList, if_pos size_lt]
    rw [if_neg (Nat.not_lt.mpr room), Bytes.toList_take]
  have enough : Layout.headerBytes count ≤
      (data.toList.take (Layout.headerBytes count + count * schema.width)).length := by
    rw [List.length_take]
    omega
  rw [decode_eq]
  rcases readContent_cases id schema data.toList.length enough with
    ⟨page, page_eq, kept⟩ | ⟨index, lt, e, failed, before, failed_eq⟩
  · refine .inl ⟨page, by rw [page_eq, Failure.ofCheck_ok], fun index lt => ?_⟩
    rw [← read_eq index lt]
    exact kept index lt
  · refine .inr ⟨index, lt, e, (read_eq index lt).symm.trans failed, fun other other_lt => ?_, ?_⟩
    · rw [← read_eq other (Nat.lt_trans other_lt lt)]
      exact before other other_lt
    · rw [failed_eq, Failure.ofCheck_error]

end Page

/-! ## The grammar -/

namespace Layout

variable (schema : Schema) (bytes : List UInt8)

/-- Everything that reading takes of a page of a size lies on it. -/
structure Within (size : Nat) : Prop where
  room : headerBytes (slotCount size schema.width) + slotCount size schema.width * schema.width ≤ size
  flag : ∀ index < slotCount size schema.width, index / 8 < headerBytes (slotCount size schema.width)
  slot : ∀ index < slotCount size schema.width, slotStart size schema.width index + schema.width ≤ size
  column : ∀ k t, schema.types[k]? = some t → Schema.columnStart schema.types k + t.width ≤ schema.width

theorem within (size : Nat) : Within schema size where
  room := room_le size schema.width
  flag index lt := by
    have := le_headerBytes (slotCount size schema.width)
    omega
  slot _ lt := slotStart_add_le lt
  column _ _ column := Schema.columnStart_add_le_width column

def columnPlace (index k : Nat) : Nat :=
  slotStart bytes.length schema.width index + Schema.columnStart schema.types k

/-- The slot is used, and one of its texts has a length past the limit. -/
def Malformed (index : Nat) : Prop :=
  index < slotCount bytes.length schema.width ∧ flagAt bytes index = true ∧
    ∃ k, schema.types[k]? = some .string ∧ textLimit < lengthAt bytes (columnPlace schema bytes index k)

/-- A byte past the flags of which nothing is read: it lies in a slot that is not used, after the last slot, or in a
text past its length. -/
inductive Ignored (place : Nat) : Prop where
  | free {index : Nat} (lt : index < slotCount bytes.length schema.width) (free : flagAt bytes index = false)
      (from_ : slotStart bytes.length schema.width index ≤ place)
      (until_ : place < slotStart bytes.length schema.width index + schema.width) : Ignored place
  | fill (past : slotStart bytes.length schema.width (slotCount bytes.length schema.width) ≤ place) : Ignored place
  | text {index k : Nat} (lt : index < slotCount bytes.length schema.width)
      (column : schema.types[k]? = some .string)
      (from_ : columnPlace schema bytes index k + 4 + lengthAt bytes (columnPlace schema bytes index k) ≤ place)
      (until_ : place < columnPlace schema bytes index k + ColumnType.string.width) : Ignored place

/-- Bytes that differ only where nothing is read: in flags past the last slot, and in ignored bytes after the flags. -/
structure Indistinct (bytes' : List UInt8) : Prop where
  length_eq : bytes'.length = bytes.length
  flags : ∀ index < slotCount bytes.length schema.width, flagAt bytes' index = flagAt bytes index
  bytes : ∀ place, headerBytes (slotCount bytes.length schema.width) ≤ place → bytes'[place]? ≠ bytes[place]? →
    Ignored schema bytes place

end Layout

section

variable {schema : Schema} {bytes bytes' : List UInt8} {index : Nat}

theorem lengthAt_slot {k : Nat} (column : schema.types[k]? = some .string) :
    lengthAt ((bytes.drop (Layout.slotStart bytes.length schema.width index)).take schema.width)
      (Schema.columnStart schema.types k) = lengthAt bytes (Layout.columnPlace schema bytes index k) := by
  have within := (Layout.within schema bytes.length).column k _ column
  have width_eq : ColumnType.string.width = 132 := rfl
  rw [lengthAt, List.drop_take, List.take_take, Nat.min_eq_left (by omega), List.drop_drop]
  rfl

theorem Layout.Indistinct.sameRead (h : Indistinct schema bytes bytes')
    (lt : index < slotCount bytes.length schema.width) (used : flagAt bytes index = true) :
    Row.SameRead schema.types ((bytes.drop (slotStart bytes.length schema.width index)).take schema.width)
      ((bytes'.drop (slotStart bytes.length schema.width index)).take schema.width) := by
  intro place place_lt read
  have place_lt : place < schema.width := place_lt
  rw [List.getElem?_take, List.getElem?_take, if_pos place_lt, if_pos place_lt, List.getElem?_drop, List.getElem?_drop]
  apply Classical.byContradiction
  intro differs
  have past_header : headerBytes (slotCount bytes.length schema.width) ≤
      slotStart bytes.length schema.width index + place := by
    unfold slotStart
    omega
  -- The place lies in this slot and in no other.
  have here : ∀ other, slotStart bytes.length schema.width other ≤ slotStart bytes.length schema.width index + place →
      slotStart bytes.length schema.width index + place < slotStart bytes.length schema.width other + schema.width →
      other = index :=
    fun other from_ until_ => slot_unique from_ until_ (Nat.le_add_right _ _) (by omega)
  cases h.bytes _ past_header (fun same => differs same.symm) with
  | free _ free from_ until_ =>
    rw [here _ from_ until_, used] at free
    cases free
  | fill past =>
    have := slotStart_add_le_slotStart bytes.length schema.width lt
    omega
  | @text other k _ column from_ until_ =>
    have within := (Layout.within schema bytes.length).column k _ column
    have place_eq : columnPlace schema bytes other k =
        slotStart bytes.length schema.width other + Schema.columnStart schema.types k := rfl
    obtain rfl : other = index := here other (by omega) (by omega)
    refine read ⟨k, column, ?_, ?_⟩
    · rw [lengthAt_slot column]
      omega
    · omega

end

namespace Page

variable {id : PageId} {schema : Schema} {bytes bytes' : List UInt8} {index : Nat}

theorem length_slot (lt : index < Layout.slotCount bytes.length schema.width) :
    ((bytes.drop (Layout.slotStart bytes.length schema.width index)).take schema.width).length = schema.width := by
  have := Layout.slotStart_add_le lt
  rw [List.length_take, List.length_drop]
  omega

theorem readAt_eq_error_iff {e : StoreError} (lt : index < Layout.slotCount bytes.length schema.width) :
    readAt id schema bytes (Layout.headerBytes (Layout.slotCount bytes.length schema.width)) index = .error e ↔
      Layout.Malformed schema bytes index ∧ e = .pageCorrupt id s!"slot {index} does not decode" := by
  have enough : Schema.widthOf schema.types ≤
      ((bytes.drop (Layout.slotStart bytes.length schema.width index)).take schema.width).length :=
    Nat.le_of_eq (length_slot lt).symm
  rw [readAt, readSlot_eq_error_iff, ← Layout.slotStart, Row.decodeValues?_eq_none_iff enough, ← and_assoc]
  refine and_congr_left fun _ => ?_
  constructor
  · rintro ⟨used, k, column, long⟩
    rw [lengthAt_slot column] at long
    exact ⟨lt, used, k, column, long⟩
  · rintro ⟨-, used, k, column, long⟩
    rw [← lengthAt_slot column] at long
    exact ⟨used, k, column, long⟩

theorem readAt_congr (h : Layout.Indistinct schema bytes bytes')
    (lt : index < Layout.slotCount bytes.length schema.width) (id : PageId) :
    readAt id schema bytes' (Layout.headerBytes (Layout.slotCount bytes.length schema.width)) index =
      readAt id schema bytes (Layout.headerBytes (Layout.slotCount bytes.length schema.width)) index := by
  rw [readAt, readAt, h.flags index lt, ← Layout.slotStart]
  cases used : Layout.flagAt bytes index with
  | false => rfl
  | true =>
    have lengths : ((bytes.drop (Layout.slotStart bytes.length schema.width index)).take schema.width).length =
        ((bytes'.drop (Layout.slotStart bytes.length schema.width index)).take schema.width).length := by
      simp only [List.length_take, List.length_drop, h.length_eq]
    simp only [readSlot, Row.decode?, Row.decodeValues?_congr (h.sameRead lt used) lengths]

theorem slots_of_decode {data : Bytes} {page : Page} (decoded : decode id schema data = .ok page) :
    page.slots.length = Layout.slotCount data.toList.length schema.width ∧
      ∀ index < Layout.slotCount data.toList.length schema.width, ∃ slot, page.slots[index]? = some slot ∧
        readAt id schema data.toList (Layout.headerBytes (Layout.slotCount data.toList.length schema.width)) index =
          .ok slot := by
  obtain ⟨-, schema_eq, size_eq, -, framed, -⟩ := decode_eq_ok decoded
  have size_lt : data.length * 8 < UInt64.size := by rw [← size_eq]; exact framed.size_lt
  refine ⟨?_, ?_⟩
  · rw [← slotCount, framed.slotCount_eq, size_eq, schema_eq, Bytes.length_toList]
  · rcases decode_cases id schema size_lt with ⟨page', decoded', kept⟩ | ⟨-, -, e, -, -, failed⟩
    · cases decoded.symm.trans decoded'
      exact kept
    · cases decoded.symm.trans failed

/-- Bytes that differ only where nothing is read are those of the same page, but for the flags past the last slot. -/
theorem decode_indistinct {data data' : Bytes} {page : Page} (decoded : decode id schema data = .ok page)
    (h : Layout.Indistinct schema data.toList data'.toList) :
    ∃ page', decode id schema data' = .ok page' ∧ page' = { page with spare := page'.spare } := by
  obtain ⟨id_eq, schema_eq, size_eq, dirtier_eq, framed, -⟩ := decode_eq_ok decoded
  have length_eq : data'.length = data.length := by rw [← Bytes.length_toList, h.length_eq, Bytes.length_toList]
  have size_lt : data'.length * 8 < UInt64.size := by rw [length_eq, ← size_eq]; exact framed.size_lt
  obtain ⟨slots_length, kept⟩ := slots_of_decode decoded
  have same : ∀ index < Layout.slotCount data.toList.length schema.width, ∃ slot, page.slots[index]? = some slot ∧
      readAt id schema data'.toList (Layout.headerBytes (Layout.slotCount data.toList.length schema.width)) index =
        .ok slot := by
    intro index lt
    rw [readAt_congr h lt]
    exact kept index lt
  rcases decode_cases id schema size_lt with ⟨page', decoded', -⟩ | ⟨index, lt, e, failed, -⟩
  · refine ⟨page', decoded', ?_⟩
    obtain ⟨id_eq', schema_eq', size_eq', dirtier_eq', -, -⟩ := decode_eq_ok decoded'
    obtain ⟨slots_length', kept'⟩ := slots_of_decode decoded'
    rw [h.length_eq] at slots_length' kept'
    have slots_eq : page'.slots = page.slots := by
      apply List.ext_getElem?
      intro index
      by_cases lt : index < Layout.slotCount data.toList.length schema.width
      · obtain ⟨slot, here, read⟩ := same index lt
        obtain ⟨slot', here', read'⟩ := kept' index lt
        cases read.symm.trans read'
        rw [here, here']
      · rw [List.getElem?_eq_none (by omega), List.getElem?_eq_none (by omega)]
    have same_size : page'.size = page.size := by rw [size_eq', size_eq, length_eq]
    cases page
    cases page'
    simp only [mk.injEq, true_and]
    exact ⟨id_eq'.trans id_eq.symm, schema_eq'.trans schema_eq.symm, same_size, slots_eq,
      dirtier_eq'.trans dirtier_eq.symm⟩
  · rw [h.length_eq] at lt failed
    obtain ⟨slot, -, read⟩ := same index lt
    cases read.symm.trans failed

def FirstMalformed (schema : Schema) (bytes : List UInt8) (index : Nat) : Prop :=
  Layout.Malformed schema bytes index ∧ ∀ before < index, ¬Layout.Malformed schema bytes before

theorem not_malformed_of_readAt {slot : Slot} (lt : index < Layout.slotCount bytes.length schema.width)
    (read : readAt id schema bytes (Layout.headerBytes (Layout.slotCount bytes.length schema.width)) index = .ok slot) :
    ¬Layout.Malformed schema bytes index := by
  intro malformed
  cases read.symm.trans ((readAt_eq_error_iff lt).mpr ⟨malformed, rfl⟩)

theorem decode_outcome (id : PageId) (schema : Schema) {data : Bytes} (size_lt : data.length * 8 < UInt64.size) :
    ((∃ page, decode id schema data = .ok page) ∧ ∀ index, ¬Layout.Malformed schema data.toList index) ∨
    ∃ index, FirstMalformed schema data.toList index ∧
      decode id schema data = .error (.refused (.pageCorrupt id s!"slot {index} does not decode")) := by
  rcases decode_cases id schema size_lt with ⟨page, decoded, kept⟩ | ⟨index, lt, e, failed, before, decode_eq⟩
  · refine .inl ⟨⟨page, decoded⟩, fun index malformed => ?_⟩
    obtain ⟨slot, -, read⟩ := kept index malformed.1
    exact not_malformed_of_readAt malformed.1 read malformed
  · obtain ⟨malformed, rfl⟩ := (readAt_eq_error_iff lt).mp failed
    refine .inr ⟨index, ⟨malformed, fun other other_lt => ?_⟩, decode_eq⟩
    obtain ⟨slot, read⟩ := before other other_lt
    exact not_malformed_of_readAt (Nat.lt_trans other_lt lt) read

theorem FirstMalformed.unique {index' : Nat} (h : FirstMalformed schema bytes index)
    (h' : FirstMalformed schema bytes index') : index = index' := by
  rcases Nat.lt_trichotomy index index' with lt | same | lt
  · exact (h'.2 index lt h.1).elim
  · exact same
  · exact (h.2 index' lt h'.1).elim

/-- Reading a page of any bytes never aborts, and takes nothing that is not there. It fails just when a slot is
malformed, and tells the first one. Of the bytes it reads the slots' flags and, in the used slots, the integers, the
lengths of the texts and so much of each text: bytes that agree there give the same rows. -/
theorem decode_grammar (id : PageId) (schema : Schema) (data : Bytes) (size_lt : data.length * 8 < UInt64.size) :
    Layout.Within schema data.length ∧ (∀ cause, decode id schema data ≠ .error (.aborted cause)) ∧
      ((∃ failure, decode id schema data = .error failure) ↔ ∃ index, Layout.Malformed schema data.toList index) ∧
      (∀ failure, decode id schema data = .error failure ↔ ∃ index, FirstMalformed schema data.toList index ∧
        failure = .refused (.pageCorrupt id s!"slot {index} does not decode")) ∧
      ∀ page data', decode id schema data = .ok page → Layout.Indistinct schema data.toList data'.toList →
        ∃ page', decode id schema data' = .ok page' ∧ page'.rows = page.rows ∧
          page' = { page with spare := page'.spare } := by
  refine ⟨Layout.within schema data.length, ?_, ?_, ?_, ?_⟩
  · intro cause failed
    rcases decode_outcome id schema size_lt with ⟨⟨page, decoded⟩, -⟩ | ⟨index, -, refused⟩
    · cases decoded.symm.trans failed
    · cases refused.symm.trans failed
  · rcases decode_outcome id schema size_lt with ⟨⟨page, decoded⟩, sound⟩ | ⟨index, first, refused⟩
    · simp [decoded, sound]
    · exact ⟨fun _ => ⟨index, first.1⟩, fun _ => ⟨_, refused⟩⟩
  · intro failure
    rcases decode_outcome id schema size_lt with ⟨⟨page, decoded⟩, sound⟩ | ⟨index, first, refused⟩
    · simp [decoded, FirstMalformed, sound]
    · rw [refused]
      constructor
      · rintro ⟨⟩
        exact ⟨index, first, rfl⟩
      · rintro ⟨index', first', rfl⟩
        rw [first.unique first']
  · intro page data' decoded h
    obtain ⟨page', decoded', page_eq⟩ := decode_indistinct decoded h
    refine ⟨page', decoded', ?_, page_eq⟩
    rw [page_eq]
    rfl

/-! A page of one text, the same page with other bytes after the text, and one whose text is too long. -/

def letterSchema : Schema := Schema.empty.addNamed "letter" .string

def letterPage : Bytes := .ofList [1, 0, 0, 0, 1, 97] ++ .zeros 134

def scribbledPage : Bytes := .ofList [3, 0, 0, 0, 1, 97, 98] ++ .zeros 133

def brokenPage : Bytes := .ofList [1, 0, 0, 1, 0] ++ .zeros 135

theorem indistinct_scribbledPage : Layout.Indistinct letterSchema letterPage.toList scribbledPage.toList where
  length_eq := by decide +kernel
  flags := by decide +kernel
  bytes := by
    have count : Layout.slotCount letterPage.toList.length letterSchema.width = 1 := by decide +kernel
    have header : Layout.headerBytes 1 = 1 := rfl
    have text : Layout.columnPlace letterSchema letterPage.toList 0 0 = 1 := by decide +kernel
    have length : lengthAt letterPage.toList 1 = 1 := by decide +kernel
    have fill : Layout.slotStart letterPage.toList.length letterSchema.width 1 = 133 := by decide +kernel
    have width : ColumnType.string.width = 132 := rfl
    have same : ∀ place < 6, 1 ≤ place → scribbledPage.toList[place]? = letterPage.toList[place]? := by decide +kernel
    intro place past differs
    rw [count, header] at past
    by_cases early : place < 6
    · exact (differs (same place early past)).elim
    · by_cases within : place < 133
      · exact @Layout.Ignored.text _ _ _ 0 0 (by omega) rfl (by rw [text, length]; omega) (by rw [text]; omega)
      · exact .fill (by rw [count, fill]; omega)

theorem decode_grammar_letters :
    letterPage.length * 8 < UInt64.size ∧ brokenPage.length * 8 < UInt64.size ∧
      decode ⟨⟨7⟩, 0⟩ letterSchema brokenPage =
        .error (.refused (.pageCorrupt ⟨⟨7⟩, 0⟩ "slot 0 does not decode")) ∧
      ∃ page page', decode ⟨⟨7⟩, 0⟩ letterSchema letterPage = .ok page ∧ page.rows.length = 1 ∧
        decode ⟨⟨7⟩, 0⟩ letterSchema scribbledPage = .ok page' ∧ page'.rows = page.rows := by
  have size_lt : letterPage.length * 8 < UInt64.size := by decide +kernel
  have size_lt' : brokenPage.length * 8 < UInt64.size := by decide +kernel
  refine ⟨size_lt, size_lt', ?_, ?_⟩
  · obtain ⟨-, -, -, fails, -⟩ := decode_grammar ⟨⟨7⟩, 0⟩ letterSchema brokenPage size_lt'
    have malformed : Layout.Malformed letterSchema brokenPage.toList 0 :=
      ⟨by decide +kernel, by decide +kernel, 0, rfl, by decide +kernel⟩
    exact (fails _).mpr ⟨0, ⟨malformed, fun _ lt => absurd lt (Nat.not_lt_zero _)⟩, rfl⟩
  · obtain ⟨-, -, -, -, ignores⟩ := decode_grammar ⟨⟨7⟩, 0⟩ letterSchema letterPage size_lt
    have read : (decode ⟨⟨7⟩, 0⟩ letterSchema letterPage).toOption.map (·.rows.length) = some 1 := by decide +kernel
    obtain ⟨page, page_eq, one⟩ := Option.map_eq_some_iff.mp read
    have decoded : decode ⟨⟨7⟩, 0⟩ letterSchema letterPage = .ok page := by
      cases outcome : decode ⟨⟨7⟩, 0⟩ letterSchema letterPage <;> simp_all [Except.toOption]
    obtain ⟨page', decoded', rows_eq, -⟩ := ignores page _ decoded indistinct_scribbledPage
    exact ⟨page, page', decoded, one, decoded', rows_eq⟩

end Page

end RowStore
