import RowStore.Proofs.Codec.Edits

/-!
# Where rows stand on a page

A row is written as its values come, and the page trusts that they take the bytes of one slot. Storing a row compares
schemas only. So a page is written exactly, each row at the place of its slot, just when every row it keeps has the
width of the schema, and a row that was given another schema need not have it.
-/

namespace RowStore

/-- A row made by the calls that make and change rows, of values or of bytes. A row may be given another schema where
`reset` allows it. -/
inductive Row.BuiltBy (reset : Schema → Schema → Prop) : Row → Prop where
  | ofValues {schema : Schema} {values : List Value} {row : Row} (made : ofValues schema values = .ok row) :
      BuiltBy reset row
  | decode {schema : Schema} {bytes : List UInt8} {row : Row} (read : decode? schema bytes = some row) :
      BuiltBy reset row
  | set {row row' : Row} {index : Nat} {v : Value} (before : BuiltBy reset row) (set : row.set index v = .ok row') :
      BuiltBy reset row'
  | withSchema {row : Row} {schema : Schema} (before : BuiltBy reset row) (allowed : reset row.schema schema) :
      BuiltBy reset (row.withSchema schema)
  | withId {row : Row} (before : BuiltBy reset row) (id : Option RowId) : BuiltBy reset (row.withId id)

theorem Row.BuiltBy.conforms {reset : Schema → Schema → Prop} {row : Row} (h : row.BuiltBy reset)
    (types_eq : ∀ before after, reset before after → after.types = before.types) : row.Conforms := by
  induction h with
  | ofValues made => exact conforms_ofValues made
  | decode read => exact conforms_decode? read
  | set _ set ih => exact ih.set set
  | withSchema _ allowed ih => exact ih.trans (types_eq _ _ allowed).symm
  | withId _ _ ih => exact ih

namespace Page

variable {page : Page}

/-- The page has as many bytes as its size, and in them each row that it keeps at the place of its slot. -/
def Exact (page : Page) : Prop :=
  ∃ bytes, page.encode = .ok bytes ∧ bytes.length = page.size ∧ ∀ index row, page.rowAt? index = some row →
    (bytes.toList.drop (page.headerSize + index * page.schema.width)).take page.schema.width = row.encode

theorem Even.exact (even : page.Even) (framed : page.Framed) : page.Exact := by
  obtain ⟨bytes, encoded, bytes_eq⟩ := framed.encode_eq even
  refine ⟨bytes, encoded, length_encode encoded, ?_⟩
  intro index row here
  obtain ⟨slot, slot_eq, row_eq⟩ := rowAt?_eq_some.mp here
  rw [bytes_eq, even.slot_at slot_eq, slotBytes, row_eq]

theorem Framed.slot_within (framed : page.Framed) {index : Nat} (lt : index < page.slotCount) :
    page.headerSize + index * page.schema.width + page.schema.width ≤ page.size := by
  have room := Layout.room_le page.size page.schema.width
  rw [← framed.slotCount_eq] at room
  have := Nat.mul_le_mul_right page.schema.width (Nat.succ_le_of_lt lt)
  rw [Nat.succ_mul] at this
  unfold headerSize
  omega

theorem Exact.even (exact : page.Exact) (framed : page.Framed) : page.Even := by
  obtain ⟨bytes, -, length_eq, place⟩ := exact
  intro index row here
  obtain ⟨slot, slot_eq, -⟩ := rowAt?_eq_some.mp here
  have within := framed.slot_within (List.getElem?_eq_some_iff.mp slot_eq).1
  rw [← place index row here, List.length_take, List.length_drop, Bytes.length_toList, length_eq]
  omega

/-- A page that was read and then changed by calls is written exactly just when the rows it keeps have the width of its
schema. They do if rows are only given schemas of the same types. -/
theorem exact_edited_iff {reset : Schema → Schema → Prop} {id : PageId} {schema : Schema} {data : Bytes} {start : Page}
    (decoded : decode id schema data = .ok start) {edits : List PageEdit}
    (built : ∀ row, .insert row ∈ edits → row.BuiltBy reset) :
    ((start.edited edits).Exact ↔
      ∀ index row, (start.edited edits).rowAt? index = some row → row.encode.length = schema.width) ∧
    ((∀ before after, reset before after → after.types = before.types) → (start.edited edits).Exact) := by
  obtain ⟨-, schema_eq, -, -, framed, -⟩ := decode_eq_ok decoded
  have framed := framed.edited edits
  have exact_iff : (start.edited edits).Exact ↔ (start.edited edits).Even :=
    ⟨fun exact => exact.even framed, fun even => even.exact framed⟩
  refine ⟨?_, ?_⟩
  · rw [exact_iff, Even, schema_edited, schema_eq]
  · intro types_eq
    rw [exact_iff]
    intro index row here
    rw [schema_edited]
    rcases rowAt?_edited here with before | ⟨stored, mem, stored_schema, rfl⟩
    · exact (formed_of_decode decoded).even index row before
    · rw [← stored_schema]
      exact Row.length_encode ((built stored mem).conforms types_eq)

/-! A row of one number that passes for a row of two, and a row after it. -/

def pairSchema : Schema := (Schema.empty.addNamed "a" .int).addNamed "b" .int

def halfRow : Row := (⟨Schema.empty.addNamed "a" .int, [.int 7], none⟩ : Row).withSchema pairSchema

def pairEdits : List PageEdit := [.insert halfRow, .insert ⟨pairSchema, [.int 1, .int 2], none⟩]

theorem exact_edited_iff_half_row :
    (∀ row, .insert row ∈ pairEdits → row.BuiltBy fun _ _ => True) ∧
      ¬((fresh ⟨⟨7⟩, 0⟩ pairSchema 64).edited pairEdits).Exact := by
  have built : ∀ row, .insert row ∈ pairEdits → row.BuiltBy fun _ _ => True := by
    intro row mem
    simp only [pairEdits, List.mem_cons, PageEdit.insert.injEq, List.not_mem_nil, or_false] at mem
    rcases mem with rfl | rfl
    · have half : Row.ofValues (Schema.empty.addNamed "a" .int) [.int 7] = .ok ⟨_, [.int 7], none⟩ := rfl
      exact .withSchema (.ofValues half) trivial
    · have whole : Row.ofValues pairSchema [.int 1, .int 2] = .ok ⟨pairSchema, [.int 1, .int 2], none⟩ := rfl
      exact .ofValues whole
  refine ⟨built, ?_⟩
  intro exact
  have widths := (exact_edited_iff (decode_zeros (by decide) ⟨⟨7⟩, 0⟩ pairSchema) built).1.mp exact
  exact absurd (widths 0 _ rfl) (by decide)

end Page

end RowStore
