import RowStore.Page.Encoding
import RowStore.Proofs.Codec.Parts
import RowStore.Proofs.Codec.Row

/-!
# The frame of a page

Where the bytes of a page stand, and what is read back from them. The frame is what reading fixes and no change of the
rows touches: the number of slots and of flags. A page in its frame whose rows all take the bytes of one slot has
exactly its size in bytes, each slot at its place.
-/

namespace RowStore

namespace Layout

theorem room_le (size width : Nat) :
    headerBytes (slotCount size width) + slotCount size width * width ≤ size := by
  have fits := slotCount_mul_le size width
  rw [Nat.mul_add, Nat.mul_one, ← Nat.mul_assoc] at fits
  unfold headerBytes
  omega

theorem le_headerBytes (slots : Nat) : slots ≤ 8 * headerBytes slots := by
  unfold headerBytes
  omega

theorem packFlags_false (bytes flags : Nat) :
    packFlags bytes (List.replicate flags false) = List.replicate bytes 0 := by
  have byte : ∀ n, byteOfBits (List.replicate n false) = 0 := fun n => by
    have : (List.replicate n false).foldr (fun bit n => bit.toNat + 2 * n) 0 = 0 := by
      induction n with
      | zero => rfl
      | succ n ih => rw [List.replicate_succ, List.foldr_cons, ih]; rfl
    rw [byteOfBits, this]
    rfl
  induction bytes generalizing flags with
  | zero => rfl
  | succ bytes ih => rw [packFlags, List.take_replicate, List.drop_replicate, byte, ih, List.replicate_succ]

end Layout

/-- The slot holds nothing, or a row of the schema. -/
def Slot.Formed (schema : Schema) (slot : Slot) : Prop :=
  ∀ row, slot.row = some row → row.schema = schema ∧ row.Conforms

/-- What is read from the bytes of the slot at `index`. A used slot without a row has the bytes of zeros. -/
def Slot.reread (id : PageId) (schema : Schema) (index : Nat) (slot : Slot) : Slot :=
  if slot.used then
    ⟨true, some ((slot.row.getD (Row.zero schema)).fit.withId (some ⟨id, UInt16.ofNat index⟩))⟩
  else .free

namespace Page

variable {page : Page} {id : PageId} {schema : Schema}

/-! ## The frame -/

/-- The page has the slots of its size and schema, and a flag for each and for the rest of the last byte. -/
structure Framed (page : Page) : Prop where
  size_lt : page.size * 8 < UInt64.size
  slotCount_eq : page.slotCount = Layout.slotCount page.size page.schema.width
  flags_eq : page.slotCount + page.spare.length = 8 * page.headerSize

theorem Framed.withSlots (h : page.Framed) {slots : List Slot} (length_eq : slots.length = page.slots.length) :
    ({ page with slots } : Page).Framed where
  size_lt := h.size_lt
  slotCount_eq := by
    rw [slotCount, length_eq]
    exact h.slotCount_eq
  flags_eq := by
    simp only [headerSize, slotCount, length_eq]
    exact h.flags_eq

/-! ## Rows in slots -/

/-- The row that is kept in a slot, whether the slot is used or not. -/
def rowAt? (page : Page) (index : Nat) : Option Row := page.slots[index]?.bind Slot.row

theorem rowAt?_eq_some {index : Nat} {row : Row} :
    page.rowAt? index = some row ↔ ∃ slot, page.slots[index]? = some slot ∧ slot.row = some row :=
  Option.bind_eq_some_iff

theorem isUsed_eq_true {index : Nat} :
    page.isUsed index = true ↔ ∃ slot, page.slots[index]? = some slot ∧ slot.used = true := by
  unfold isUsed
  cases page.slots[index]? <;> simp

theorem insert_eq_ok {row : Row} {page' : Page} {rowId : RowId} (h : page.insert row = .ok (page', rowId)) :
    row.schema = page.schema ∧ ∃ index, page.firstFree? = some index ∧ rowId = page.rowId index ∧
      page' = { page with slots := page.slots.set index ⟨true, some (row.withId (some rowId))⟩ } := by
  unfold insert at h
  split at h
  · cases h
  · next schema_eq =>
    split at h
    · cases h
    · next index free =>
      cases h
      exact ⟨Classical.not_not.mp schema_eq, index, free, rfl, rfl⟩

theorem delete_eq_ok {row : Row} {page' : Page} (h : page.delete row = .ok page') :
    ∃ rowId, row.id = some rowId ∧ rowId.page = page.id ∧ page.isUsed rowId.slot.toNat = true ∧
      page' = { page with slots := page.slots.set rowId.slot.toNat .free } := by
  unfold delete at h
  split at h
  · cases h
  · next rowId id_eq =>
    dsimp only at h
    split at h
    · cases h
    · next on_page =>
      split at h
      · cases h
      · next used =>
        cases h
        simp only [not_or, ne_eq, Classical.not_not] at on_page
        exact ⟨rowId, id_eq, on_page.1, by simpa using used, rfl⟩

/-! ## Writing -/

/-- Every row that is kept takes the bytes of one slot. -/
def Even (page : Page) : Prop :=
  ∀ index row, page.rowAt? index = some row → row.encode.length = page.schema.width

theorem Even.length_slotBytes (h : page.Even) {slot : Slot} (mem : slot ∈ page.slots) :
    (slotBytes page.schema.width slot).length = page.schema.width := by
  unfold slotBytes
  split
  · next row row_eq =>
    obtain ⟨index, here⟩ := List.getElem?_of_mem mem
    exact h index row (rowAt?_eq_some.mpr ⟨slot, here, row_eq⟩)
  · exact List.length_replicate

/-- The bytes of a page, with the zeros that fill it. -/
def image (page : Page) : List UInt8 :=
  page.content ++ List.replicate (page.size - page.content.length) 0

theorem Even.length_content (h : page.Even) :
    page.content.length = page.headerSize + page.slotCount * page.schema.width := by
  rw [content, List.length_append, Layout.length_packFlags,
    length_flatMap_parts fun slot mem => h.length_slotBytes mem, slotCount]

theorem Framed.content_le (framed : page.Framed) (even : page.Even) : page.content.length ≤ page.size := by
  rw [even.length_content, headerSize, framed.slotCount_eq]
  exact Layout.room_le page.size page.schema.width

theorem Framed.length_image (framed : page.Framed) (even : page.Even) : page.image.length = page.size := by
  have := framed.content_le even
  rw [image, List.length_append, List.length_replicate]
  omega

theorem Framed.encode_eq (framed : page.Framed) (even : page.Even) :
    ∃ bytes, page.encode = .ok bytes ∧ bytes.toList = page.image := by
  have written : page.encode = .ok (.ofList page.content ++ .zeros (page.size - page.content.length)) := by
    rw [encode, if_pos (framed.content_le even)]
  exact ⟨_, written, toList_encode written⟩

theorem Even.slot_at (h : page.Even) {index : Nat} {slot : Slot} (here : page.slots[index]? = some slot) :
    (page.image.drop (page.headerSize + index * page.schema.width)).take page.schema.width =
      slotBytes page.schema.width slot := by
  have parts : ∀ slot ∈ page.slots, (slotBytes page.schema.width slot).length = page.schema.width :=
    fun slot mem => h.length_slotBytes mem
  have part := part_flatMap_parts parts here
  have length_part := congrArg List.length part
  rw [parts slot (List.mem_of_getElem? here), List.length_take, List.length_drop] at length_part
  have header : (Layout.packFlags page.headerSize (page.slots.map Slot.used ++ page.spare)).length = page.headerSize :=
    Layout.length_packFlags _ _
  rw [image, content, ← List.drop_drop, List.append_assoc, List.drop_left' header, ← part]
  by_cases empty : page.schema.width = 0
  · simp [empty]
  · rw [List.drop_append_of_le_length (by omega), List.take_append_of_le_length]
    rw [List.length_drop]
    omega

/-! ## Reading -/

/-- Every row that is kept is one of the page's schema. -/
def Formed (page : Page) : Prop := ∀ slot ∈ page.slots, slot.Formed page.schema

theorem Formed.even (h : page.Formed) : page.Even := by
  intro index row here
  obtain ⟨slot, slot_eq, row_eq⟩ := rowAt?_eq_some.mp here
  obtain ⟨schema_eq, conforms⟩ := h slot (List.mem_of_getElem? slot_eq) row row_eq
  rw [← schema_eq]
  exact Row.length_encode conforms

def reread (page : Page) : Page :=
  { page with slots := page.slots.mapIdx (Slot.reread page.id page.schema), dirtier := none }

theorem slotBytes_eq (schema : Schema) (slot : Slot) :
    slotBytes schema.width slot = (slot.row.getD (Row.zero schema)).encode := by
  cases row_eq : slot.row with
  | none => rw [slotBytes, row_eq, Option.getD_none, Row.encode_zero]
  | some row => rw [slotBytes, row_eq, Option.getD_some]

theorem readSlot_slotBytes {slot : Slot} (formed : slot.Formed schema) (id : PageId) (index : Nat) :
    readSlot id schema index slot.used (slotBytes schema.width slot) = .ok (slot.reread id schema index) := by
  unfold readSlot Slot.reread
  split
  · have kept : (slot.row.getD (Row.zero schema)).schema = schema ∧ (slot.row.getD (Row.zero schema)).Conforms := by
      cases row_eq : slot.row with
      | none => exact ⟨rfl, Row.conforms_zero schema⟩
      | some row => exact formed row row_eq
    have decoded := Row.decode?_encode kept.2 []
    rw [List.append_nil, kept.1] at decoded
    simp only [slotBytes_eq, decoded]
    rfl
  · rfl

theorem readSlots_slotBytes {slots : List Slot} (formed : ∀ slot ∈ slots, slot.Formed schema) (id : PageId)
    (index : Nat) (done : List Slot) :
    readSlots id schema index (slots.map Slot.used) (slots.flatMap (slotBytes schema.width)) done =
      .ok (done.reverse ++ slots.mapIdx fun i => Slot.reread id schema (index + i)) := by
  induction slots generalizing index done with
  | nil => simp [readSlots]
  | cons slot slots ih =>
    have here := formed slot List.mem_cons_self
    have width_eq : (slotBytes schema.width slot).length = schema.width := by
      unfold slotBytes
      split
      · next row row_eq => rw [Row.length_encode (here row row_eq).2, (here row row_eq).1]
      · exact List.length_replicate
    simp only [List.map_cons, List.flatMap_cons, readSlots, List.take_left' width_eq, List.drop_left' width_eq,
      readSlot_slotBytes here, ih fun slot mem => formed slot (List.mem_cons_of_mem _ mem), List.reverse_cons,
      List.append_assoc, List.cons_append, List.nil_append, List.mapIdx_cons, Nat.add_zero, Nat.add_assoc,
      Nat.add_comm 1]

theorem Framed.readContent_eq (framed : page.Framed) (formed : page.Formed) :
    readContent page.id page.schema page.size page.slotCount page.content = .ok page.reread := by
  have flags : (page.slots.map Slot.used ++ page.spare).length = 8 * page.headerSize := by
    rw [List.length_append, List.length_map, ← framed.flags_eq, slotCount]
  have count : (page.slots.map Slot.used).length = page.slotCount := by rw [List.length_map, slotCount]
  have header : (Layout.packFlags page.headerSize (page.slots.map Slot.used ++ page.spare)).length =
      Layout.headerBytes page.slotCount := Layout.length_packFlags _ _
  unfold readContent content
  simp only [List.take_left' header, List.drop_left' header, Layout.unpackFlags_packFlags flags,
    List.take_left' count, List.drop_left' count, readSlots_slotBytes formed, List.reverse_nil, List.nil_append,
    Nat.zero_add]
  rfl

theorem Framed.decode_eq (framed : page.Framed) (formed : page.Formed) {bytes : Bytes}
    (bytes_eq : bytes.toList = page.image) : decode page.id page.schema bytes = .ok page.reread := by
  have size_eq : bytes.length = page.size := by
    rw [← Bytes.length_toList, bytes_eq, framed.length_image formed.even]
  have slots_eq : Layout.slotsFor page.size page.schema = .ok page.slotCount := by
    rw [Layout.slotsFor, if_pos framed.size_lt, framed.slotCount_eq]
  have room_eq : Layout.headerBytes page.slotCount + page.slotCount * page.schema.width = page.content.length :=
    formed.even.length_content.symm
  have enough : ¬page.size < page.content.length := Nat.not_lt.mpr (framed.content_le formed.even)
  simp only [decode, size_eq, slots_eq, room_eq, if_neg enough, Bytes.toList_take, bytes_eq, image,
    List.take_left' rfl, framed.readContent_eq formed, Failure.ofCheck_ok]

theorem readSlots_eq_ok {index : Nat} {flags : List Bool} {bytes : List UInt8} {done slots : List Slot}
    (h : readSlots id schema index flags bytes done = .ok slots) :
    ∃ read, slots = done.reverse ++ read ∧ ∀ i (slot : Slot), read[i]? = some slot → slot = .free ∨ ∃ row part,
      Row.decode? schema part = some row ∧ slot = ⟨true, some (row.withId (some ⟨id, UInt16.ofNat (index + i)⟩))⟩ := by
  induction flags generalizing index bytes done with
  | nil =>
    cases h
    exact ⟨[], by simp, by simp⟩
  | cons used flags ih =>
    simp only [readSlots] at h
    split at h
    · cases h
    · next first first_eq =>
      obtain ⟨read, rfl, others⟩ := ih h
      refine ⟨first :: read, by simp, ?_⟩
      intro i slot here
      cases i with
      | zero =>
        cases here
        unfold readSlot at first_eq
        split at first_eq
        · split at first_eq
          · next row row_eq =>
            cases first_eq
            exact .inr ⟨row, _, row_eq, rfl⟩
          · cases first_eq
        · cases first_eq
          exact .inl rfl
      | succ i =>
        rw [Nat.add_comm i 1, ← Nat.add_assoc]
        exact others i slot here

theorem readContent_eq_ok {size count : Nat} {content : List UInt8}
    (h : readContent id schema size count content = .ok page) (long : Layout.headerBytes count ≤ content.length) :
    ∃ slots spare, page = ⟨id, schema, size, slots, spare, none⟩ ∧ slots.length = count ∧
      count + spare.length = 8 * Layout.headerBytes count ∧
      ∀ index (slot : Slot), slots[index]? = some slot → slot = .free ∨ ∃ row part,
        Row.decode? schema part = some row ∧ slot = ⟨true, some (row.withId (some ⟨id, UInt16.ofNat index⟩))⟩ := by
  have flags :
      (Layout.unpackFlags (content.take (Layout.headerBytes count))).length = 8 * Layout.headerBytes count := by
    rw [Layout.length_unpackFlags, List.length_take, Nat.min_eq_left long]
  have le := Layout.le_headerBytes count
  unfold readContent at h
  dsimp only at h
  split at h
  · cases h
  · next slots slots_eq =>
    cases h
    have length_slots := length_readSlots slots_eq
    obtain ⟨read, rfl, kept⟩ := readSlots_eq_ok slots_eq
    simp only [List.length_take, flags, List.length_nil, Nat.zero_add] at length_slots
    refine ⟨_, _, rfl, by omega, ?_, ?_⟩
    · rw [List.length_drop, flags]
      omega
    · intro index slot here
      simpa using kept index slot here

theorem decode_eq_ok {bytes : Bytes} (h : decode id schema bytes = .ok page) :
    page.id = id ∧ page.schema = schema ∧ page.size = bytes.length ∧ page.dirtier = none ∧ page.Framed ∧
      ∀ index (slot : Slot), page.slots[index]? = some slot → slot = .free ∨ ∃ row part,
        Row.decode? schema part = some row ∧ slot = ⟨true, some (row.withId (some (page.rowId index)))⟩ := by
  by_cases size_lt : bytes.length * 8 < UInt64.size
  · have room := Layout.room_le bytes.length schema.width
    simp only [decode, Layout.slotsFor, if_pos size_lt, if_neg (Nat.not_lt.mpr room)] at h
    have read : readContent id schema bytes.length (Layout.slotCount bytes.length schema.width)
        (bytes.take (Layout.headerBytes (Layout.slotCount bytes.length schema.width) +
          Layout.slotCount bytes.length schema.width * schema.width)).toList = .ok page := by
      revert h
      cases readContent _ _ _ _ _ with
      | error e => exact fun h => by cases h
      | ok read => exact fun h => by cases h; rfl
    obtain ⟨slots, spare, rfl, length_slots, flags, kept⟩ := readContent_eq_ok read (by simp; omega)
    refine ⟨rfl, rfl, rfl, rfl, ⟨size_lt, length_slots, ?_⟩, kept⟩
    simp only [slotCount, headerSize, length_slots]
    exact flags
  · simp only [decode, Layout.slotsFor, if_neg size_lt] at h
    cases h

theorem formed_of_decode {bytes : Bytes} (h : decode id schema bytes = .ok page) : page.Formed := by
  obtain ⟨-, schema_eq, -, -, -, kept⟩ := decode_eq_ok h
  intro slot mem row row_eq
  obtain ⟨index, here⟩ := List.getElem?_of_mem mem
  rcases kept index slot here with rfl | ⟨read, part, read_eq, rfl⟩
  · cases row_eq
  · cases row_eq
    have conforms := Row.conforms_decode? read_eq
    obtain ⟨values, -, rfl⟩ := Option.map_eq_some_iff.mp read_eq
    exact ⟨schema_eq.symm, conforms⟩

/-! ## The page read back -/

theorem reread_eq (same : ∀ index (slot : Slot), page.slots[index]? = some slot →
    slot.reread page.id page.schema index = slot) : page.reread = page.markDirty none := by
  have slots_eq : page.slots.mapIdx (Slot.reread page.id page.schema) = page.slots := by
    apply List.ext_getElem?
    intro index
    rw [List.getElem?_mapIdx]
    cases here : page.slots[index]? with
    | none => rfl
    | some slot => rw [Option.map_some, same index slot here]
  rw [reread, slots_eq, markDirty]

theorem isUsed_reread (page : Page) (index : Nat) : page.reread.isUsed index = page.isUsed index := by
  unfold isUsed reread
  rw [List.getElem?_mapIdx]
  cases page.slots[index]? with
  | none => rfl
  | some slot =>
    simp only [Option.map_some, Slot.reread]
    cases slot.used <;> rfl

theorem rowAt?_reread {index : Nat} (used : page.isUsed index = true) :
    page.reread.rowAt? index =
      some (((page.rowAt? index).getD (Row.zero page.schema)).fit.withId (some (page.rowId index))) := by
  obtain ⟨slot, slot_eq, used⟩ := isUsed_eq_true.mp used
  simp [rowAt?, reread, slot_eq, Slot.reread, used, rowId]

/-! ## A page without rows -/

def fresh (id : PageId) (schema : Schema) (size : Nat) : Page :=
  let slots := Layout.slotCount size schema.width
  ⟨id, schema, size, List.replicate slots .free, List.replicate (8 * Layout.headerBytes slots - slots) false, none⟩

theorem framed_fresh (id : PageId) (schema : Schema) {size : Nat} (size_lt : size * 8 < UInt64.size) :
    (fresh id schema size).Framed where
  size_lt := size_lt
  slotCount_eq := List.length_replicate
  flags_eq := by
    have le := Layout.le_headerBytes (Layout.slotCount size schema.width)
    simp only [headerSize, slotCount, fresh, List.length_replicate]
    omega

theorem formed_fresh (id : PageId) (schema : Schema) (size : Nat) : (fresh id schema size).Formed := by
  intro slot mem row row_eq
  rw [(List.mem_replicate.mp mem).2] at row_eq
  cases row_eq

theorem image_fresh {size : Nat} (size_lt : size * 8 < UInt64.size) :
    (fresh id schema size).image = List.replicate size 0 := by
  have zeros : ∃ n, (fresh id schema size).image = List.replicate n 0 := by
    simp [image, content, fresh, Slot.free, Layout.packFlags_false, slotBytes, List.replicate_append_replicate,
      List.flatMap_replicate, List.flatten_replicate_replicate]
  obtain ⟨n, zeros⟩ := zeros
  have length := (framed_fresh id schema size_lt).length_image (formed_fresh id schema size).even
  rw [zeros, List.length_replicate] at length
  rw [zeros, length]
  rfl

theorem decode_zeros {size : Nat} (size_lt : size * 8 < UInt64.size) (id : PageId) (schema : Schema) :
    decode id schema (.zeros size) = .ok (fresh id schema size) := by
  have image_eq : (Bytes.zeros size).toList = (fresh id schema size).image := by
    rw [Bytes.toList_zeros, image_fresh size_lt]
  have decoded := (framed_fresh id schema size_lt).decode_eq (formed_fresh id schema size) image_eq
  rw [reread_eq fun index slot here => ?_] at decoded
  · exact decoded
  · rw [(List.mem_replicate.mp (List.mem_of_getElem? here)).2]
    rfl

end Page

end RowStore
