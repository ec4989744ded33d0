import RowStore.Proofs.Codec.Edits

/-!
# Reading back a changed page

A page that was filled from zeros, by calls that store rows of checked values, remove rows and set flags, is read back
from its bytes with the same used slots and the same rows in them. A slot that was marked as used without a row is read
as a row of zeros.
-/

namespace RowStore.Page

variable {page : Page} {id : PageId} {schema : Schema}

/-- Every row that is kept is one of the page's schema, has nothing to cut and knows its place. -/
def Neat (page : Page) : Prop :=
  ∀ index row, page.rowAt? index = some row →
    row.schema = page.schema ∧ row.Conforms ∧ row.Fits ∧ row.id = some (page.rowId index)

theorem Neat.formed (h : page.Neat) : page.Formed := by
  intro slot mem row row_eq
  obtain ⟨index, here⟩ := List.getElem?_of_mem mem
  obtain ⟨schema_eq, conforms, -, -⟩ := h index row (rowAt?_eq_some.mpr ⟨slot, here, row_eq⟩)
  exact ⟨schema_eq, conforms⟩

theorem neat_fresh (id : PageId) (schema : Schema) (size : Nat) : (fresh id schema size).Neat := by
  intro index row here
  obtain ⟨slot, slot_eq, row_eq⟩ := rowAt?_eq_some.mp here
  rw [(List.mem_replicate.mp (List.mem_of_getElem? slot_eq)).2] at row_eq
  cases row_eq

theorem Neat.edited (h : page.Neat) {edits : List PageEdit} (made : ∀ row, .insert row ∈ edits → row.Made) :
    (page.edited edits).Neat := by
  intro index row here
  rw [schema_edited, rowId, id_edited]
  rcases rowAt?_edited here with before | ⟨stored, mem, schema_eq, rfl⟩
  · exact h index row before
  · exact ⟨schema_eq, (made stored mem).conforms, (made stored mem).fits, rfl⟩

theorem Neat.rowAt?_reread (h : page.Neat) {index : Nat} (used : page.isUsed index = true) {row : Row}
    (here : page.rowAt? index = some row) : page.reread.rowAt? index = some row := by
  obtain ⟨-, -, fits, id_eq⟩ := h index row here
  rw [Page.rowAt?_reread used, here, Option.getD_some, fits.fit_eq, ← id_eq]
  rfl

theorem Framed.toNat_slot (h : page.Framed) {index : Nat} (lt : index < page.slotCount) :
    (page.rowId index).slot.toNat = index := by
  have le := Layout.slotCount_le_maxSlots page.size page.schema.width
  rw [← h.slotCount_eq] at le
  have : Layout.maxSlots = 65536 := rfl
  simp only [rowId, UInt16.toNat_ofNat']
  omega

theorem decode_blank_iff (id : PageId) (schema : Schema) (size : Nat) :
    (∃ data start, blank size = .ok data ∧ decode id schema data = .ok start) ↔ size * 8 < UInt64.size := by
  constructor
  · rintro ⟨data, start, blank_eq, decoded⟩
    obtain ⟨-, -, size_eq, -, framed, -⟩ := decode_eq_ok decoded
    unfold blank at blank_eq
    split at blank_eq
    · cases blank_eq
      rw [Bytes.length_zeros] at size_eq
      rw [← size_eq]
      exact framed.size_lt
    · cases blank_eq
  · intro size_lt
    have limit : size < sizeLimit := by
      have : UInt64.size = 0x10000000000000000 := rfl
      unfold sizeLimit
      omega
    exact ⟨_, _, blank_eq_ok limit, decode_zeros size_lt id schema⟩

theorem start_eq_fresh {size : Nat} {data : Bytes} {start : Page} (blank_eq : blank size = .ok data)
    (decoded : decode id schema data = .ok start) : start = fresh id schema size := by
  have size_lt := (decode_blank_iff id schema size).mp ⟨data, start, blank_eq, decoded⟩
  unfold blank at blank_eq
  split at blank_eq
  · cases blank_eq
    rw [decode_zeros size_lt] at decoded
    cases decoded
    rfl
  · cases blank_eq

/-- Whatever is stored, removed and marked on a page that was empty at first, its bytes are as many as its size and give
back its used slots and the rows in them. -/
theorem decode_encode_edited (id : PageId) (schema : Schema) (size : Nat) {edits : List PageEdit}
    (made : ∀ row, .insert row ∈ edits → row.Made) :
    ((∃ data start, blank size = .ok data ∧ decode id schema data = .ok start) ↔ size * 8 < UInt64.size) ∧
    ∀ data start, blank size = .ok data → decode id schema data = .ok start →
      ∃ bytes again, (start.edited edits).encode = .ok bytes ∧ bytes.length = size ∧
        decode id schema bytes = .ok again ∧
        (∀ index, again.isUsed index = (start.edited edits).isUsed index) ∧
        ∀ index, (start.edited edits).isUsed index = true →
          (UInt16.ofNat index).toNat = index ∧
          (∀ row, (start.edited edits).rowAt? index = some row →
            again.rowAt? index = some row ∧ row.schema = schema ∧ row.id = some ⟨id, UInt16.ofNat index⟩) ∧
          ((start.edited edits).rowAt? index = none →
            again.rowAt? index = some ((Row.zero schema).withId (some ⟨id, UInt16.ofNat index⟩))) := by
  refine ⟨decode_blank_iff id schema size, ?_⟩
  intro data start blank_eq decoded
  have size_lt := (decode_blank_iff id schema size).mp ⟨data, start, blank_eq, decoded⟩
  obtain rfl := start_eq_fresh blank_eq decoded
  have framed := (framed_fresh id schema size_lt).edited edits
  have neat := (neat_fresh id schema size).edited made
  generalize page_eq : (fresh id schema size).edited edits = page at framed neat
  have id_eq : page.id = id := by rw [← page_eq, id_edited]; rfl
  have schema_eq : page.schema = schema := by rw [← page_eq, schema_edited]; rfl
  have size_eq : page.size = size := by rw [← page_eq, size_edited]; rfl
  obtain ⟨bytes, encoded, bytes_eq⟩ := framed.encode_eq neat.formed.even
  have again := framed.decode_eq neat.formed bytes_eq
  rw [id_eq, schema_eq] at again
  refine ⟨bytes, page.reread, encoded, (length_encode encoded).trans size_eq, again, isUsed_reread page, ?_⟩
  intro index used
  have place : page.rowId index = ⟨id, UInt16.ofNat index⟩ := by rw [rowId, id_eq]
  refine ⟨?_, ?_, ?_⟩
  · have := framed.toNat_slot (isUsed_lt used)
    rwa [place] at this
  · intro row here
    obtain ⟨row_schema, -, -, row_id⟩ := neat index row here
    exact ⟨neat.rowAt?_reread used here, row_schema.trans schema_eq, row_id.trans (congrArg some place)⟩
  · intro here
    rw [rowAt?_reread used, here, Option.getD_none, (Row.fits_zero _).fit_eq, schema_eq, place]

/-! A text that is cut, and a slot that is freed and then marked. -/

def noteSchema : Schema := (Schema.empty.addNamed "number" .int).addNamed "text" .string

def longText : String := String.ofList (List.replicate 130 'x')

def longNote : Row := ⟨noteSchema, [.int 1, (Value.string longText).fit], none⟩

def noteEdits : List PageEdit :=
  [.insert longNote, .insert longNote, .delete (longNote.withId (some ⟨⟨⟨7⟩, 0⟩, 1⟩)), .mark 1 true]

theorem made_longNote : longNote.Made := by
  have checked : Row.ofValues noteSchema [.int 1, .string longText] = .ok longNote := rfl
  exact .ofValues checked

theorem decode_encode_edited_long_text :
    (∀ row, .insert row ∈ noteEdits → row.Made) ∧
    ∃ bytes again, ((fresh ⟨⟨7⟩, 0⟩ noteSchema 300).edited noteEdits).encode = .ok bytes ∧ bytes.length = 300 ∧
      decode ⟨⟨7⟩, 0⟩ noteSchema bytes = .ok again ∧
      again.rowAt? 0 = some (longNote.withId (some ⟨⟨⟨7⟩, 0⟩, 0⟩)) ∧
      again.rowAt? 1 = some ⟨noteSchema, [.int 0, .string ""], some ⟨⟨⟨7⟩, 0⟩, 1⟩⟩ := by
  have made : ∀ row, .insert row ∈ noteEdits → row.Made := by
    intro row mem
    simp only [noteEdits, List.mem_cons, PageEdit.insert.injEq, reduceCtorEq, List.not_mem_nil, or_false,
      or_self] at mem
    rw [mem]
    exact made_longNote
  refine ⟨made, ?_⟩
  obtain ⟨bytes, again, encoded, length_eq, decoded, -, slots⟩ :=
    (decode_encode_edited ⟨⟨7⟩, 0⟩ noteSchema 300 made).2 _ _ (blank_eq_ok (by decide)) (decode_zeros (by decide) _ _)
  refine ⟨bytes, again, encoded, length_eq, decoded, ?_, ?_⟩
  · exact ((slots 0 rfl).2.1 _ rfl).1
  · exact (slots 1 rfl).2.2 rfl

end RowStore.Page
