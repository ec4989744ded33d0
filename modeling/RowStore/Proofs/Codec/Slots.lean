import Mathlib.Data.List.Basic
import RowStore.Proofs.Codec.Flags
import RowStore.Proofs.Codec.ReadBack

/-!
# The slots of a page

A page that was read, and then changed by calls that store and remove rows alone, keeps its flags and its rows in step:
a slot is used just when a row is stored in it, and the row knows its place. A call that succeeds changes one slot, and
one that is refused changes nothing.
-/

namespace RowStore

/-- The call stores or removes a row. It does not set a flag by hand. -/
def PageEdit.OfRow : PageEdit → Prop
  | .insert _ | .delete _ => True
  | .mark .. => False

namespace Page

variable {page page' : Page}

/-! ## Pages in order -/

/-- A slot is free and empty, or used by a row that knows its place. -/
def Orderly (page : Page) : Prop :=
  ∀ index (slot : Slot), page.slots[index]? = some slot →
    slot = .free ∨ ∃ row, slot = ⟨true, some row⟩ ∧ row.id = some (page.rowId index)

theorem orderly_of_decode {id : PageId} {schema : Schema} {data : Bytes} (h : decode id schema data = .ok page) :
    page.Orderly := by
  obtain ⟨-, -, -, -, -, kept⟩ := decode_eq_ok h
  intro index slot here
  rcases kept index slot here with free | ⟨row, -, -, slot_eq⟩
  · exact .inl free
  · exact .inr ⟨_, slot_eq, rfl⟩

theorem Orderly.withSlot (h : page.Orderly) {index : Nat} {new : Slot}
    (new_eq : new = .free ∨ ∃ row, new = ⟨true, some row⟩ ∧ row.id = some (page.rowId index)) :
    ({ page with slots := page.slots.set index new } : Page).Orderly := by
  intro other slot here
  rw [List.getElem?_set] at here
  split at here
  · next same =>
    subst same
    split at here
    · cases here
      exact new_eq
    · cases here
  · exact h other slot here

theorem Orderly.edit (h : page.Orderly) {call : PageEdit} (ofRow : call.OfRow) : (page.edit call).Orderly := by
  cases call with
  | insert row =>
    cases inserted : page.insert row with
    | error e => simpa only [Page.edit, inserted] using h
    | ok stored =>
      obtain ⟨-, index, -, id_eq, page_eq⟩ := insert_eq_ok inserted
      simp only [Page.edit, inserted, page_eq, id_eq]
      exact h.withSlot (.inr ⟨_, rfl, rfl⟩)
  | delete row =>
    cases deleted : page.delete row with
    | error e => simpa only [Page.edit, deleted] using h
    | ok page' =>
      obtain ⟨id, -, -, -, page_eq⟩ := delete_eq_ok deleted
      simp only [Page.edit, deleted, page_eq]
      exact h.withSlot (.inl rfl)
  | mark index used => exact ofRow.elim

theorem Orderly.edited (h : page.Orderly) {edits : List PageEdit} (ofRows : ∀ call ∈ edits, call.OfRow) :
    (page.edited edits).Orderly := by
  induction edits generalizing page with
  | nil => exact h
  | cons call edits ih =>
    exact ih (h.edit (ofRows call List.mem_cons_self)) fun other mem => ofRows other (List.mem_cons_of_mem _ mem)

/-! ## Used slots -/

theorem Orderly.isUsed_iff (h : page.Orderly) (index : Nat) :
    page.isUsed index = true ↔ ∃ row, page.rowAt? index = some row := by
  rw [isUsed_eq_true]
  simp only [rowAt?_eq_some]
  constructor
  · rintro ⟨slot, here, used⟩
    rcases h index slot here with rfl | ⟨row, rfl, -⟩
    · cases used
    · exact ⟨row, _, here, rfl⟩
  · rintro ⟨row, slot, here, row_eq⟩
    rcases h index slot here with rfl | ⟨row, rfl, -⟩
    · cases row_eq
    · exact ⟨_, here, rfl⟩

theorem Orderly.id_eq (h : page.Orderly) {index : Nat} {row : Row} (here : page.rowAt? index = some row) :
    row.id = some (page.rowId index) := by
  obtain ⟨slot, slot_eq, row_eq⟩ := rowAt?_eq_some.mp here
  rcases h index slot slot_eq with rfl | ⟨row, rfl, id_eq⟩
  · cases row_eq
  · cases row_eq
    exact id_eq

theorem rowAt?_lt {index : Nat} {row : Row} (here : page.rowAt? index = some row) : index < page.slotCount := by
  obtain ⟨slot, slot_eq, -⟩ := rowAt?_eq_some.mp here
  exact (List.getElem?_eq_some_iff.mp slot_eq).1

theorem isUsed_of_lt {index : Nat} (lt : index < page.slots.length) : page.isUsed index = page.slots[index].used := by
  rw [isUsed_eq_getD, List.getElem?_eq_getElem lt]
  rfl

theorem Orderly.slot_of_free (h : page.Orderly) {index : Nat} (lt : index < page.slotCount)
    (free : page.isUsed index = false) : page.slots[index]? = some .free := by
  have here := List.getElem?_eq_getElem lt
  rw [isUsed_of_lt lt] at free
  rcases h index _ here with slot_eq | ⟨row, slot_eq, -⟩
  · rwa [slot_eq] at here
  · rw [slot_eq] at free
    cases free

/-! ## Rows in slot order -/

def usedSlots (page : Page) : List Nat := (List.range page.slotCount).filter page.isUsed

theorem mem_usedSlots {index : Nat} : index ∈ page.usedSlots ↔ page.isUsed index = true := by
  simp only [usedSlots, List.mem_filter, List.mem_range, and_iff_right_iff_imp]
  exact isUsed_lt

theorem pairwise_usedSlots (page : Page) : page.usedSlots.Pairwise (· < ·) := List.pairwise_lt_range.filter _

theorem Orderly.live?_eq (h : page.Orderly) {slot : Slot} (mem : slot ∈ page.slots) : slot.live? = slot.row := by
  obtain ⟨index, here⟩ := List.getElem?_of_mem mem
  rcases h index slot here with rfl | ⟨row, rfl, -⟩ <;> rfl

theorem Orderly.isSome_row (h : page.Orderly) {slot : Slot} (mem : slot ∈ page.slots) :
    slot.row.isSome = slot.used := by
  obtain ⟨index, here⟩ := List.getElem?_of_mem mem
  rcases h index slot here with rfl | ⟨row, rfl, -⟩ <;> rfl

theorem map_row_slots (page : Page) : page.slots.map Slot.row = (List.range page.slotCount).map page.rowAt? := by
  apply List.ext_getElem?
  intro index
  rw [List.getElem?_map, List.getElem?_map]
  by_cases lt : index < page.slotCount
  · rw [List.getElem?_range lt, Option.map_some, rowAt?, List.getElem?_eq_getElem lt]
    rfl
  · have past := Nat.le_of_not_lt lt
    rw [List.getElem?_eq_none past, List.getElem?_eq_none (by simpa using past)]
    rfl

theorem Orderly.map_some_rows (h : page.Orderly) : page.rows.map some = page.usedSlots.map page.rowAt? := by
  have used_eq : ∀ index, (page.rowAt? index).isSome = page.isUsed index := by
    intro index
    rw [Bool.eq_iff_iff, Option.isSome_iff_exists, h.isUsed_iff]
  calc page.rows.map some
      = (page.slots.filterMap Slot.row).map some := by
        rw [rows, List.filterMap_congr fun slot mem => h.live?_eq mem]
    _ = ((List.range page.slotCount).map page.rowAt?).filter Option.isSome := by
        rw [List.map_filterMap_some_eq_filter_map_isSome, map_row_slots]
    _ = page.usedSlots.map page.rowAt? := by
        rw [List.filter_map, usedSlots]
        exact congrArg _ (List.filter_congr fun index _ => used_eq index)

theorem Orderly.freeCount_add (h : page.Orderly) : page.freeCount + page.rows.length = page.slotCount := by
  have rows_eq : page.rows.length = page.slots.countP Slot.used := by
    rw [rows, List.length_filterMap_eq_countP]
    apply List.countP_congr
    intro slot mem
    rw [h.live?_eq mem, h.isSome_row mem]
  rw [rows_eq, slotCount, List.length_eq_countP_add_countP Slot.used, Nat.add_comm, freeCount]
  simp

/-! ## One slot changes -/

/-- The pages differ in one slot and its flag, if at all. -/
structure OnlyAt (index : Nat) (before after : Page) : Prop where
  rest : { after with slots := before.slots } = before
  length_eq : after.slotCount = before.slotCount
  slots : ∀ other, other ≠ index → after.slots[other]? = before.slots[other]?
  flags : ∀ other, other ≠ index → Layout.flagAt after.header other = Layout.flagAt before.header other

theorem Framed.onlyAt_set (h : page.Framed) (index : Nat) (new : Slot) :
    OnlyAt index page { page with slots := page.slots.set index new } := by
  have length_eq : (page.slots.set index new).length = page.slots.length := List.length_set
  have same : ∀ other, other ≠ index → (page.slots.set index new)[other]? = page.slots[other]? :=
    fun other differs => List.getElem?_set_ne differs.symm
  refine ⟨rfl, length_eq, same, ?_⟩
  intro other differs
  have after := (h.withSlots length_eq).length_flags
  have header_eq : ({ page with slots := page.slots.set index new } : Page).headerSize = page.headerSize := by
    simp only [headerSize, slotCount, length_eq]
  rw [header_eq] at after
  rw [header, header, header_eq]
  apply Layout.flagAt_packFlags_congr after h.length_flags
  -- The flags of the slots agree at `other`, and so do those after them.
  simp only [List.getElem?_append, List.length_map, length_eq, List.getElem?_map, same other differs]

/-! ## Storing a row -/

/-- The row as its owner has it after it was stored, or was not. -/
def stamped (page : Page) (row : Row) : Row :=
  match page.insert row with
  | .ok (_, id) => row.withId (some id)
  | .error _ => row

theorem firstFree?_eq_some_iff {index : Nat} :
    page.firstFree? = some index ↔
      index < page.slotCount ∧ page.isUsed index = false ∧ ∀ before < index, page.isUsed before = true := by
  rw [firstFree?, List.findIdx?_eq_some_iff_getElem]
  constructor
  · rintro ⟨lt, free, used⟩
    refine ⟨lt, ?_, fun before before_lt => ?_⟩
    · rw [isUsed_of_lt lt]
      simpa using free
    · rw [isUsed_of_lt (Nat.lt_trans before_lt lt)]
      simpa using used before before_lt
  · rintro ⟨lt, free, used⟩
    refine ⟨lt, ?_, fun before before_lt => ?_⟩
    · rw [isUsed_of_lt lt] at free
      simpa using free
    · have := used before before_lt
      rw [isUsed_of_lt (Nat.lt_trans before_lt lt)] at this
      simpa using this

theorem firstFree?_isSome_iff : (∃ index, page.firstFree? = some index) ↔
    ∃ index < page.slotCount, page.isUsed index = false := by
  constructor
  · rintro ⟨index, first⟩
    obtain ⟨lt, free, -⟩ := firstFree?_eq_some_iff.mp first
    exact ⟨index, lt, free⟩
  · rintro ⟨index, lt, free⟩
    rw [← Option.isSome_iff_exists, firstFree?, List.findIdx?_isSome, List.any_eq_true]
    rw [isUsed_of_lt lt] at free
    exact ⟨_, List.getElem_mem lt, by simpa using free⟩

theorem insert_isOk_iff {row : Row} : (∃ page' id, page.insert row = .ok (page', id)) ↔
    row.schema = page.schema ∧ ∃ index, page.firstFree? = some index := by
  unfold insert
  split
  · next other => simp [other]
  · next same =>
    rw [Classical.not_not] at same
    split
    · next full => simp [full]
    · next index first => simp [same, first]

/-- What storing a row does: it takes the first free slot, and no other, if there is one and the row is of the page's
schema. Removing the row again leaves the page as it was. -/
structure Stores (page : Page) (row : Row) : Prop where
  ok_iff : (∃ page' id, page.insert row = .ok (page', id)) ↔
    row.schema = page.schema ∧ ∃ index < page.slotCount, page.isUsed index = false
  stored : ∀ page' id, page.insert row = .ok (page', id) → ∃ index < page.slotCount,
    page.isUsed index = false ∧ (∀ before < index, page.isUsed before = true) ∧
      id = page.rowId index ∧ page.stamped row = row.withId (some id) ∧
      page'.isUsed index = true ∧ page'.rowAt? index = some (page.stamped row) ∧ OnlyAt index page page' ∧
      page'.delete (page.stamped row) = .ok page
  refused : ∀ e, page.insert row = .error e → page.edit (.insert row) = page ∧ page.stamped row = row

theorem stamped_of_ok {row : Row} {id : RowId} (h : page.insert row = .ok (page', id)) :
    page.stamped row = row.withId (some id) := by
  rw [stamped, h]

theorem isUsed_set (index : Nat) (new : Slot) (lt : index < page.slotCount) :
    ({ page with slots := page.slots.set index new } : Page).isUsed index = new.used := by
  rw [isUsed, List.getElem?_set_self lt]

theorem rowAt?_set (index : Nat) (new : Slot) (lt : index < page.slotCount) :
    ({ page with slots := page.slots.set index new } : Page).rowAt? index = new.row := by
  rw [rowAt?, List.getElem?_set_self lt]
  rfl

theorem Orderly.set_set_free (h : page.Orderly) {index : Nat} (lt : index < page.slotCount)
    (free : page.isUsed index = false) (new : Slot) :
    (page.slots.set index new).set index .free = page.slots := by
  have here := h.slot_of_free lt free
  have lt : index < page.slots.length := lt
  rw [List.getElem?_eq_getElem lt] at here
  rw [List.set_set, ← Option.some.inj here, List.set_getElem_self]

theorem delete_eq {row : Row} {id : RowId} (id_eq : row.id = some id) (on_page : id.page = page.id)
    (used : page.isUsed id.slot.toNat = true) :
    page.delete row = .ok { page with slots := page.slots.set id.slot.toNat .free } := by
  have within : ¬(id.page ≠ page.id ∨ page.slotCount ≤ id.slot.toNat) := by
    rintro (off | past)
    · exact off on_page
    · exact Nat.not_lt.mpr past (isUsed_lt used)
  simp only [delete, id_eq, if_neg within, used, Bool.not_true, Bool.false_eq_true, if_false]

theorem Orderly.stores (h : page.Orderly) (framed : page.Framed) (row : Row) : page.Stores row where
  ok_iff := by rw [insert_isOk_iff, firstFree?_isSome_iff]
  stored := by
    intro page' id inserted
    have stamped_eq := stamped_of_ok inserted
    obtain ⟨-, index, first, rfl, rfl⟩ := insert_eq_ok inserted
    obtain ⟨lt, free, used⟩ := firstFree?_eq_some_iff.mp first
    have place := framed.toNat_slot lt
    refine ⟨index, lt, free, used, rfl, stamped_eq, isUsed_set index _ lt, ?_, framed.onlyAt_set index _, ?_⟩
    · rw [rowAt?_set index _ lt, stamped_eq]
    · let new : Slot := ⟨true, some (row.withId (some (page.rowId index)))⟩
      have used_after : ({ page with slots := page.slots.set index new } : Page).isUsed
          (page.rowId index).slot.toNat = true := by rw [place, isUsed_set index new lt]
      rw [stamped_eq, delete_eq rfl rfl used_after]
      simp only [place, h.set_set_free lt free]
  refused := by
    intro e failed
    simp only [Page.edit, stamped, failed, and_self]

/-! ## Removing a row -/

/-- What removing a row does: it frees the slot in which the row says it lives, and no other, if the slot is on the page
and used. -/
structure Removes (page : Page) (row : Row) : Prop where
  ok_iff : (∃ page', page.delete row = .ok page') ↔
    ∃ id, row.id = some id ∧ id.page = page.id ∧ page.isUsed id.slot.toNat = true
  removed : ∀ page', page.delete row = .ok page' → ∃ id, row.id = some id ∧
    page'.isUsed id.slot.toNat = false ∧ page'.rowAt? id.slot.toNat = none ∧ OnlyAt id.slot.toNat page page'
  refused : ∀ e, page.delete row = .error e → page.edit (.delete row) = page

theorem Framed.removes (framed : page.Framed) (row : Row) : page.Removes row where
  ok_iff := by
    constructor
    · rintro ⟨page', deleted⟩
      obtain ⟨id, id_eq, on_page, used, -⟩ := delete_eq_ok deleted
      exact ⟨id, id_eq, on_page, used⟩
    · rintro ⟨id, id_eq, on_page, used⟩
      exact ⟨_, delete_eq id_eq on_page used⟩
  removed := by
    intro page' deleted
    obtain ⟨id, id_eq, -, used, rfl⟩ := delete_eq_ok deleted
    have lt := isUsed_lt used
    exact ⟨id, id_eq, isUsed_set _ _ lt, rowAt?_set _ _ lt, framed.onlyAt_set _ _⟩
  refused := by
    intro e failed
    simp only [edit, failed]

/-! ## Calls one after another -/

/-- The flags and the rows of a page say the same. -/
structure InStep (page : Page) : Prop where
  flags : ∀ index < page.slotCount, Layout.flagAt page.header index = page.isUsed index
  used_iff : ∀ index, page.isUsed index = true ↔ ∃ row, page.rowAt? index = some row
  placed : ∀ index row, page.rowAt? index = some row →
    row.id = some (page.rowId index) ∧ (page.rowId index).slot.toNat = index
  counted : page.freeCount + page.rows.length = page.slotCount
  listed : page.rows.map some = page.usedSlots.map page.rowAt?
  increasing : page.usedSlots.Pairwise (· < ·) ∧ ∀ index, index ∈ page.usedSlots ↔ page.isUsed index = true

theorem Orderly.inStep (h : page.Orderly) (framed : page.Framed) : page.InStep where
  flags _ lt := framed.flagAt_header lt
  used_iff := h.isUsed_iff
  placed _ _ here := ⟨h.id_eq here, framed.toNat_slot (rowAt?_lt here)⟩
  counted := h.freeCount_add
  listed := h.map_some_rows
  increasing := ⟨page.pairwise_usedSlots, fun _ => mem_usedSlots⟩

/-- Whatever rows were stored on a page that was read, and removed from it, its flags and its rows say the same, and the
next row that is stored or removed changes the one slot it should, or nothing. -/
theorem slots_edited {id : PageId} {schema : Schema} {data : Bytes} {start : Page}
    (decoded : decode id schema data = .ok start) {edits : List PageEdit} (ofRows : ∀ call ∈ edits, call.OfRow) :
    let page := start.edited edits
    page.id = id ∧ page.schema = schema ∧ page.slotCount = Layout.slotCount data.length schema.width ∧ page.InStep ∧
      ∀ row, page.Stores row ∧ page.Removes row := by
  intro page
  obtain ⟨id_eq, schema_eq, size_eq, -, framed, -⟩ := decode_eq_ok decoded
  have framed := framed.edited edits
  have orderly := (orderly_of_decode decoded).edited ofRows
  refine ⟨?_, ?_, ?_, orderly.inStep framed, fun row => ⟨orderly.stores framed row, framed.removes row⟩⟩
  · rw [id_edited, id_eq]
  · rw [schema_edited, schema_eq]
  · rw [framed.slotCount_eq, size_edited, schema_edited, size_eq, schema_eq]

/-! A page of seven slots on which a slot is freed and taken again. -/

def digitsId : PageId := ⟨⟨7⟩, 0⟩

def digitsSchema : Schema := Schema.empty.addNamed "digit" .int

def digit (n : Int32) : Row := ⟨digitsSchema, [.int n], none⟩

def digitEdits : List PageEdit :=
  [.insert (digit 1), .insert (digit 2), .insert (digit 3), .delete ((digit 2).withId (some ⟨digitsId, 1⟩)),
    .delete (digit 3)]

theorem slots_edited_reuse :
    (∀ call ∈ digitEdits, call.OfRow) ∧
      let page := (fresh digitsId digitsSchema 32).edited digitEdits
      page.slotCount = 7 ∧ page.freeCount = 5 ∧ page.InStep ∧
        ∃ page' index, page.insert (digit 4) = .ok (page', page.rowId index) ∧ index = 1 ∧ OnlyAt index page page' ∧
          page'.delete (page.stamped (digit 4)) = .ok page := by
  have decoded : decode digitsId digitsSchema (.zeros 32) = .ok (fresh digitsId digitsSchema 32) :=
    decode_zeros (by decide) _ _
  have ofRows : ∀ call ∈ digitEdits, call.OfRow := by simp [digitEdits, PageEdit.OfRow]
  obtain ⟨-, -, count, inStep, calls⟩ := slots_edited decoded ofRows
  refine ⟨ofRows, count, by decide, inStep, ?_⟩
  have stores := (calls (digit 4)).1
  obtain ⟨page', id, inserted⟩ := stores.ok_iff.mpr ⟨by decide, 1, by decide, by decide⟩
  obtain ⟨index, -, free, used, rfl, -, -, -, only, restored⟩ := stores.stored page' id inserted
  -- Slot 0 is used and slot 1 is free, so the first free slot is slot 1.
  have first : index = 1 := by
    have not_before : ¬1 < index := fun lt => absurd (used 1 lt) (by decide)
    have not_zero : index ≠ 0 := by
      rintro rfl
      exact absurd free (by decide)
    omega
  exact ⟨page', index, inserted, first, only, restored⟩

end Page

end RowStore
