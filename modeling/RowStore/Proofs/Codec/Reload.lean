import RowStore.Proofs.Codec.Page

/-!
# Reading a page again

Reading takes any bytes whose used slots hold rows, also bytes that no page was written to. A text that was read can be
longer than what is kept of it when it is written. What is cut then is cut for good: a page that was read twice is read
the same ever after.
-/

namespace RowStore

def Slot.fit (slot : Slot) : Slot := { slot with row := slot.row.map Row.fit }

theorem Slot.sound_reread {id : PageId} {schema : Schema} {slot : Slot} (formed : slot.Formed schema) (index : Nat) :
    (slot.reread id schema index).Sound id schema index := by
  unfold Slot.reread
  split
  · have kept : (slot.row.getD (Row.zero schema)).schema = schema ∧ (slot.row.getD (Row.zero schema)).Conforms := by
      cases row_eq : slot.row with
      | none => exact ⟨rfl, Row.conforms_zero schema⟩
      | some row => exact formed row row_eq
    exact .inr ⟨_, rfl, kept.1, Row.conforms_fit kept.2, Row.fits_fit _, rfl⟩
  · exact .inl rfl

namespace Page

variable {page : Page} {id : PageId} {schema : Schema}

theorem Framed.reload_eq (framed : page.Framed) (formed : page.Formed) : page.reload = .ok page.reread := by
  obtain ⟨bytes, encoded, bytes_eq⟩ := framed.encode_eq formed.even
  simp only [reload, encoded]
  exact framed.decode_eq formed bytes_eq

theorem Framed.sound_reread (framed : page.Framed) (formed : page.Formed) : page.reread.Sound where
  size_lt := framed.size_lt
  slotCount_eq := (framed.withSlots List.length_mapIdx).slotCount_eq
  flags_eq := (framed.withSlots List.length_mapIdx).flags_eq
  slots := by
    intro index slot here
    rw [reread, List.getElem?_mapIdx] at here
    obtain ⟨before, before_eq, rfl⟩ := Option.map_eq_some_iff.mp here
    rw [Nat.zero_add]
    exact Slot.sound_reread (formed before (List.mem_of_getElem? before_eq)) index

/-! ## Pages that were read -/

theorem slots_reread_of_decode {bytes : Bytes} (h : decode id schema bytes = .ok page) :
    page.reread.slots = page.slots.map Slot.fit := by
  obtain ⟨-, -, -, -, -, kept⟩ := decode_eq_ok h
  apply List.ext_getElem?
  intro index
  rw [reread, List.getElem?_mapIdx, List.getElem?_map]
  cases here : page.slots[index]? with
  | none => rfl
  | some slot =>
    rcases kept index slot here with rfl | ⟨row, part, -, rfl⟩
    · rfl
    · rfl

theorem rows_map_fit (slots : List Slot) :
    (slots.map Slot.fit).filterMap Slot.live? = (slots.filterMap Slot.live?).map Row.fit := by
  rw [List.filterMap_map, List.map_filterMap]
  congr 1
  funext slot
  obtain ⟨used, row⟩ := slot
  cases used <;> rfl

theorem byteCount_le_of_decode {bytes : Bytes} (h : decode id schema bytes = .ok page) {row : Row}
    (mem : row ∈ page.rows) {s : String} (text : .string s ∈ row.values) : Utf8.byteCount s ≤ 3 * textLimit := by
  obtain ⟨-, -, -, -, -, kept⟩ := decode_eq_ok h
  obtain ⟨slot, slot_mem, live⟩ := List.mem_filterMap.mp mem
  obtain ⟨index, here⟩ := List.getElem?_of_mem slot_mem
  rcases kept index slot here with rfl | ⟨read, part, read_eq, rfl⟩
  · cases live
  · cases live
    exact Row.byteCount_le_of_decode? read_eq text

/-- Whatever bytes a page was read from, it can be written and read again, with the same used slots and its texts cut to
what is kept of them. The rows come back as they were exactly if no text was longer than that, and from then on they
always do. A text that was read takes at most three times the bytes that are kept. -/
theorem reload_decoded {data : Bytes} (decoded : decode id schema data = .ok page) :
    ∃ again, page.reload = .ok again ∧ again.reload = .ok again ∧
      (∀ index, again.isUsed index = page.isUsed index) ∧ again.rows = page.rows.map Row.fit ∧
      (again.rows = page.rows ↔ ∀ row ∈ page.rows, ∀ s, .string s ∈ row.values → Utf8.byteCount s ≤ textLimit) ∧
      ∀ row ∈ page.rows, ∀ s, .string s ∈ row.values → Utf8.byteCount s ≤ 3 * textLimit := by
  have formed := formed_of_decode decoded
  obtain ⟨-, -, -, -, framed, -⟩ := decode_eq_ok decoded
  have rows_eq : page.reread.rows = page.rows.map Row.fit := by
    rw [rows, slots_reread_of_decode decoded, rows_map_fit, rows]
  have sound := framed.sound_reread formed
  have settled : page.reread.reload = .ok page.reread := by
    obtain ⟨bytes, encoded, bytes_eq⟩ := sound.encode_eq
    simp only [reload, encoded]
    exact sound.decode_eq bytes_eq
  refine ⟨page.reread, framed.reload_eq formed, settled, isUsed_reread page, rows_eq, ?_, ?_⟩
  · rw [rows_eq]
    conv => lhs; rhs; rw [← List.map_id page.rows]
    rw [List.map_inj_left]
    exact forall₂_congr fun row _ => Row.fit_eq_self_iff.trans Row.fits_iff
  · intro row mem s text
    exact byteCount_le_of_decode decoded mem text

/-! Bytes that encode nothing: 43 of them are read as a text of 129 bytes. -/

def garbledSchema : Schema := Schema.empty.addNamed "text" .string

def garbledData : Bytes := .ofList ([1, 0, 0, 0, 43] ++ List.replicate 43 0xFF) ++ .zeros 85

def garbledText : String := String.ofList (List.replicate 43 Utf8.replacement)

def garbledPage : Page where
  id := ⟨⟨7⟩, 0⟩
  schema := garbledSchema
  size := 133
  slots := [⟨true, some ⟨garbledSchema, [.string garbledText], some ⟨⟨⟨7⟩, 0⟩, 0⟩⟩⟩]
  spare := List.replicate 7 false
  dirtier := none

theorem reload_decoded_garbled :
    decode ⟨⟨7⟩, 0⟩ garbledSchema garbledData = .ok garbledPage ∧
      ∃ again, garbledPage.reload = .ok again ∧ again.reload = .ok again ∧ again.rows ≠ garbledPage.rows := by
  have decoded : decode ⟨⟨7⟩, 0⟩ garbledSchema garbledData = .ok garbledPage := by
    have read : (decode ⟨⟨7⟩, 0⟩ garbledSchema garbledData).toOption = some garbledPage := by decide +kernel
    cases result : decode ⟨⟨7⟩, 0⟩ garbledSchema garbledData with
    | error failure =>
      rw [result] at read
      cases read
    | ok page =>
      rw [result] at read
      rw [Option.some.inj read]
  obtain ⟨again, reload_eq, settled, -, -, same_iff, -⟩ := reload_decoded decoded
  refine ⟨decoded, again, reload_eq, settled, ?_⟩
  intro same
  have short := same_iff.mp same _ List.mem_cons_self garbledText List.mem_cons_self
  exact absurd short (by decide +kernel)

end Page

end RowStore
