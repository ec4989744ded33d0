import RowStore.Proofs.Codec.Frame

/-!
# Reading back a page

A page whose used slots hold rows of its schema, and whose other slots hold nothing, has as many bytes as its size, and
is read back from them as it was, but for the mark of a change.
-/

namespace RowStore

/-! ## Slots -/

/-- The slot holds nothing, or a row of the schema that has nothing to cut and knows its place. -/
def Slot.Sound (id : PageId) (schema : Schema) (index : Nat) (slot : Slot) : Prop :=
  slot = .free ∨ ∃ row, slot = ⟨true, some row⟩ ∧ row.schema = schema ∧ row.Conforms ∧ row.Fits ∧
    row.id = some ⟨id, UInt16.ofNat index⟩

/-- The slots are sound, the first of them as the slot at `index`. -/
def Slot.AllSound (id : PageId) (schema : Schema) (index : Nat) (slots : List Slot) : Prop :=
  ∀ i (slot : Slot), slots[i]? = some slot → slot.Sound id schema (index + i)

theorem Slot.Sound.formed {id : PageId} {schema : Schema} {index : Nat} {slot : Slot}
    (h : slot.Sound id schema index) : slot.Formed schema := by
  intro row row_eq
  rcases h with rfl | ⟨row, rfl, schema_eq, conforms, -, -⟩
  · cases row_eq
  · cases row_eq
    exact ⟨schema_eq, conforms⟩

theorem Slot.Sound.reread_eq {id : PageId} {schema : Schema} {index : Nat} {slot : Slot}
    (h : slot.Sound id schema index) : slot.reread id schema index = slot := by
  rcases h with rfl | ⟨row, rfl, -, -, fits, id_eq⟩
  · rfl
  · simp only [Slot.reread, Option.getD_some, fits.fit_eq, ← id_eq, ite_true]
    rfl

/-! ## Pages -/

namespace Page

/-- The page has the slots of its size and schema, a flag for each and for the rest of the last byte, and only sound
slots. -/
structure Sound (page : Page) : Prop where
  size_lt : page.size * 8 < UInt64.size
  slotCount_eq : page.slotCount = Layout.slotCount page.size page.schema.width
  flags_eq : page.slotCount + page.spare.length = 8 * page.headerSize
  slots : Slot.AllSound page.id page.schema 0 page.slots

variable {page : Page}

theorem Sound.framed (h : page.Sound) : page.Framed := ⟨h.size_lt, h.slotCount_eq, h.flags_eq⟩

theorem Sound.formed (h : page.Sound) : page.Formed := by
  intro slot mem
  obtain ⟨index, here⟩ := List.getElem?_of_mem mem
  exact (h.slots index slot here).formed

theorem Sound.length_image (h : page.Sound) : page.image.length = page.size :=
  h.framed.length_image h.formed.even

theorem Sound.encode_eq (h : page.Sound) : ∃ bytes, page.encode = .ok bytes ∧ bytes.toList = page.image :=
  h.framed.encode_eq h.formed.even

theorem Sound.decode_eq (h : page.Sound) {bytes : Bytes} (bytes_eq : bytes.toList = page.image) :
    decode page.id page.schema bytes = .ok (page.markDirty none) := by
  have same : page.reread = page.markDirty none := Page.reread_eq fun index slot here => by
    have sound := h.slots index slot here
    rw [Nat.zero_add] at sound
    exact sound.reread_eq
  rw [h.framed.decode_eq h.formed bytes_eq, same]

end Page

end RowStore
