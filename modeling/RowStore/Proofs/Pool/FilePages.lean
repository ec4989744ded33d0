import RowStore.Proofs.Codec.Page
import RowStore.Proofs.Pool.PlainTables

/-!
# The pages of a table file

The page that a table file has for the rows of a plain page, its bytes, and what storing and removing a row do to it.
-/

namespace RowStore

/-! ## Sizes -/

namespace TableFile

/-- Rows of the file's schema can be stored in its pages. -/
def Opened (file : TableFile) : Prop := checkSizes file.schema file.pageSize = .ok ()

theorem Opened.sizes {file : TableFile} (h : file.Opened) :
    0 < file.pageSize ∧ file.pageSize * 8 < UInt64.size ∧ 0 < file.slots := by
  unfold Opened checkSizes Layout.slotsFor at h
  split at h
  · cases h
  · next pos =>
    split at h
    · cases h
    · next slots slots_eq =>
      split at slots_eq
      · next lt =>
        cases slots_eq
        split at h
        · cases h
        · next some => exact ⟨Nat.pos_of_ne_zero pos, lt, Nat.pos_of_ne_zero some⟩
      · cases slots_eq

theorem Opened.pageSize_lt {file : TableFile} (h : file.Opened) : file.pageSize < Page.sizeLimit := by
  have bits_lt := h.sizes.2.1
  have : UInt64.size = 0x10000000000000000 := rfl
  unfold Page.sizeLimit
  omega

/-! ## A page and its rows -/

def slotOf : Option Row → Slot
  | none => .free
  | some row => ⟨true, some row⟩

/-- The page with these rows, without the mark of a change. -/
def page (file : TableFile) (number : Nat) (rows : PlainPage) : Page where
  id := file.pageId (UInt32.ofNat number)
  schema := file.schema
  size := file.pageSize
  slots := rows.map slotOf
  spare := List.replicate (8 * Layout.headerBytes file.slots - file.slots) false
  dirtier := none

/-- The file may have these rows as a page: one slot for each that fits, and in it a row of the file's schema that has
nothing to cut and knows its place. -/
structure Stores (file : TableFile) (number : Nat) (rows : PlainPage) : Prop where
  length_eq : rows.length = file.slots
  row : ∀ i row, rows[i]? = some (some row) →
    row.schema = file.schema ∧ row.Conforms ∧ row.Fits ∧ row.id = some (file.rowId number i)

variable {file : TableFile} {number : Nat} {rows : PlainPage}

theorem Stores.sound (h : file.Stores number rows) (opened : file.Opened) : (file.page number rows).Sound where
  size_lt := opened.sizes.2.1
  slotCount_eq := by
    rw [Page.slotCount, page, List.length_map, h.length_eq]
    rfl
  flags_eq := by
    have count : (file.page number rows).slotCount = file.slots := by
      rw [Page.slotCount, page, List.length_map, h.length_eq]
    have le := Layout.le_headerBytes file.slots
    rw [Page.headerSize, count, page, List.length_replicate]
    omega
  slots := fun i slot here => by
    rw [page, List.getElem?_map] at here
    obtain ⟨row?, row_eq, rfl⟩ := Option.map_eq_some_iff.mp here
    rw [Nat.zero_add]
    cases row? with
    | none => exact .inl rfl
    | some row =>
      obtain ⟨schema_eq, conforms, fits, id_eq⟩ := h.row i row row_eq
      exact .inr ⟨row, rfl, schema_eq, conforms, fits, id_eq⟩

/-- The bytes of a page. They do not depend on its number. -/
def image (file : TableFile) (rows : PlainPage) : List UInt8 := (file.page 0 rows).image

theorem image_page (number : Nat) : (file.page number rows).image = file.image rows := rfl

theorem Stores.length_image (h : file.Stores number rows) (opened : file.Opened) :
    (file.image rows).length = file.pageSize := by
  rw [← image_page number]
  exact (h.sound opened).length_image

theorem Stores.encode_eq (h : file.Stores number rows) (opened : file.Opened) (mark : Option TxnId) :
    ∃ bytes, ((file.page number rows).markDirty mark).encode = .ok bytes ∧ bytes.toList = file.image rows :=
  (h.sound opened).encode_eq

theorem Stores.decode_eq (h : file.Stores number rows) (opened : file.Opened) {bytes : Bytes}
    (bytes_eq : bytes.toList = file.image rows) :
    Page.decode (file.pageId (UInt32.ofNat number)) file.schema bytes = .ok (file.page number rows) :=
  (h.sound opened).decode_eq bytes_eq

theorem rows_page (mark : Option TxnId) : ((file.page number rows).markDirty mark).rows = rows.rows := by
  rw [Page.rows, Page.slots_markDirty, page, List.filterMap_map, PlainPage.rows]
  congr 1
  funext row?
  cases row? <;> rfl

/-! ## A page without rows -/

theorem stores_blankPage (file : TableFile) (number : Nat) : file.Stores number file.blankPage where
  length_eq := List.length_replicate
  row := by
    intro i row here
    rw [blankPage, List.getElem?_replicate] at here
    split at here <;> cases here

theorem image_blankPage (opened : file.Opened) : file.image file.blankPage = List.replicate file.pageSize 0 := by
  have fresh : file.page 0 file.blankPage = Page.fresh (file.pageId 0) file.schema file.pageSize := by
    simp only [page, blankPage, List.map_replicate]
    rfl
  rw [image, fresh]
  exact Page.image_fresh opened.sizes.2.1

/-! ## Storing a row -/

theorem firstFree?_page (mark : Option TxnId) :
    ((file.page number rows).markDirty mark).firstFree? = rows.free? := by
  rw [Page.firstFree?, Page.slots_markDirty, page, List.findIdx?_map, PlainPage.free?]
  congr 1
  funext row?
  cases row? <;> rfl

theorem insert_page_full (mark : Option TxnId) {row : Row} (schema_eq : row.schema = file.schema)
    (full : rows.free? = none) :
    ((file.page number rows).markDirty mark).insert row =
      .error (.pageFull (file.pageId (UInt32.ofNat number))) := by
  rw [Page.insert, if_neg (fun ne => ne schema_eq), firstFree?_page, full]
  rfl

theorem insert_page (mark : Option TxnId) {row : Row} (schema_eq : row.schema = file.schema) {slot : Nat}
    (free : rows.free? = some slot) :
    ((file.page number rows).markDirty mark).insert row =
      .ok ((file.page number (rows.set slot (some (row.withId (some (file.rowId number slot)))))).markDirty mark,
        file.rowId number slot) := by
  rw [Page.insert, if_neg (fun ne => ne schema_eq), firstFree?_page, free]
  simp only [page, Page.markDirty, List.map_set]
  rfl

theorem Stores.insert (h : file.Stores number rows) {row : Row} (made : row.Made)
    (schema_eq : row.schema = file.schema) (slot : Nat) :
    file.Stores number (rows.set slot (some (row.withId (some (file.rowId number slot))))) where
  length_eq := by rw [List.length_set, h.length_eq]
  row := fun i other here => by
    rw [List.getElem?_set] at here
    split at here
    · next same =>
      subst same
      split at here
      · cases here
        exact ⟨schema_eq, made.conforms, made.fits, rfl⟩
      · cases here
    · exact h.row i other here

/-! ## Removing a row -/

theorem delete_page_out (mark : Option TxnId) {row : Row} {id : PageId} {slot : UInt16}
    (id_eq : row.id = some ⟨id, slot⟩) (here : id = file.pageId (UInt32.ofNat number))
    (out : rows[slot.toNat]? = none) :
    ((file.page number rows).markDirty mark).delete row = .error (.rowNotOnPage id) := by
  have le : ((file.page number rows).markDirty mark).slotCount ≤ slot.toNat := by
    simpa [Page.slotCount, page] using out
  subst here
  unfold Page.delete
  rw [id_eq]
  simp only [if_pos (Or.inr le)]
  rfl

theorem isUsed_page (mark : Option TxnId) {slot : Nat} {row? : Option Row} (here : rows[slot]? = some row?) :
    ((file.page number rows).markDirty mark).isUsed slot = row?.isSome := by
  have slot_eq : ((file.page number rows).markDirty mark).slots[slot]? = some (slotOf row?) := by
    rw [Page.slots_markDirty, page, List.getElem?_map, here]
    rfl
  rw [Page.isUsed, slot_eq]
  cases row? <;> rfl

theorem delete_page {row : Row} {id : PageId} {slot : UInt16} (id_eq : row.id = some ⟨id, slot⟩)
    (at_page : id = file.pageId (UInt32.ofNat number)) {row? : Option Row} (here : rows[slot.toNat]? = some row?)
    (mark : Option TxnId) :
    ((file.page number rows).markDirty mark).delete row =
      if row?.isSome then .ok ((file.page number (rows.set slot.toNat none)).markDirty mark)
      else .error (.slotEmpty id slot) := by
  have lt : ¬((file.page number rows).markDirty mark).slotCount ≤ slot.toNat := by
    have := (List.getElem?_eq_some_iff.mp here).1
    simpa [Page.slotCount, page] using this
  subst at_page
  have on_page : ¬((file.pageId (UInt32.ofNat number) ≠ ((file.page number rows).markDirty mark).id) ∨
      ((file.page number rows).markDirty mark).slotCount ≤ slot.toNat) := fun h => h.elim (fun ne => ne rfl) lt
  unfold Page.delete
  rw [id_eq]
  simp only [if_neg on_page, isUsed_page mark here]
  cases row? with
  | none => rfl
  | some row =>
    simp only [page, Page.markDirty, List.map_set, Option.isSome_some, Bool.not_true, Bool.false_eq_true, ite_false,
      ite_true]
    rfl

theorem Stores.delete (h : file.Stores number rows) (slot : Nat) : file.Stores number (rows.set slot none) where
  length_eq := by rw [List.length_set, h.length_eq]
  row := fun i other here => by
    rw [List.getElem?_set] at here
    split at here
    · split at here <;> cases here
    · exact h.row i other here

end TableFile

end RowStore
