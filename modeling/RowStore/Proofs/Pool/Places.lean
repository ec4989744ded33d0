import RowStore.Proofs.Pool.CursorSteps

/-!
# The places of rows

A row of a sound page names the page and the slot where it lives. So the rows of a table, taken page by page, are in the
order of their places, and a row is found where its place says.
-/

namespace RowStore

/-! ## The order of places -/

namespace Row

/-- The row lives in a table, on a page with a number before `n`. -/
def PlacedBelow (row : Row) (table : TableId) (n : Nat) : Prop :=
  ∃ id, row.id = some id ∧ id.page.table = table ∧ id.page.number.toNat < n

/-- The row lives on an earlier page than another of its table, or in an earlier slot of the same page. -/
def Precedes (row other : Row) : Prop :=
  ∃ id id', row.id = some id ∧ other.id = some id' ∧ id.page.table = id'.page.table ∧
    (id.page.number < id'.page.number ∨ id.page.number = id'.page.number ∧ id.slot < id'.slot)

end Row

theorem PlainPage.mem_rows {page : PlainPage} {slot : Nat} {row : Row} (here : page[slot]? = some (some row)) :
    row ∈ page.rows := List.mem_filterMap.mpr ⟨some row, List.mem_of_getElem? here, rfl⟩

theorem PlainTable.mem_rowsFrom {table : PlainTable} {first last : Nat} {row : Row} :
    row ∈ table.rowsFrom first last ↔
      ∃ number page, first ≤ number ∧ number < last ∧ table[number]? = some page ∧ row ∈ page.rows := by
  unfold rowsFrom rows
  rw [List.mem_flatMap]
  constructor
  · rintro ⟨page, page_mem, row_mem⟩
    obtain ⟨i, here⟩ := List.mem_iff_getElem?.mp page_mem
    rw [List.getElem?_take, Option.ite_none_right_eq_some, List.getElem?_drop] at here
    exact ⟨first + i, page, by omega, by omega, here.2, row_mem⟩
  · rintro ⟨number, page, le, lt, here, row_mem⟩
    refine ⟨page, List.mem_iff_getElem?.mpr ⟨number - first, ?_⟩, row_mem⟩
    rw [List.getElem?_take, if_pos (by omega), List.getElem?_drop, Nat.add_sub_cancel' le, here]

namespace TableFile

variable {file : TableFile} {number : Nat} {page : PlainPage} {row other : Row}

theorem slots_le (file : TableFile) : file.slots ≤ UInt16.size :=
  Layout.slotCount_le_maxSlots file.pageSize file.schema.width

theorem slot_rowId {slot : Nat} (lt : slot < file.slots) (number : Nat) :
    (file.rowId number slot).slot.toNat = slot := by
  have le := file.slots_le
  unfold rowId
  rw [UInt16.toNat_ofNat']
  exact Nat.mod_eq_of_lt (Nat.lt_of_lt_of_le lt le)

theorem number_rowId (lt : number < UInt32.size) (slot : Nat) : (file.rowId number slot).page.number.toNat = number :=
  PoolId.Shows.toNat_ofNat_of_lt lt (Nat.le_refl _)

theorem Stores.slot_of_mem (h : file.Stores number page) (mem : row ∈ page.rows) :
    ∃ slot, slot < file.slots ∧ page[slot]? = some (some row) ∧ row.id = some (file.rowId number slot) := by
  obtain ⟨row?, row?_mem, row?_eq⟩ := List.mem_filterMap.mp mem
  subst row?_eq
  obtain ⟨slot, here⟩ := List.mem_iff_getElem?.mp row?_mem
  have lt := (List.getElem?_eq_some_iff.mp here).1
  rw [h.length_eq] at lt
  exact ⟨slot, lt, here, (h.row slot row here).2.2.2⟩

theorem Stores.precedes (h : file.Stores number page) : page.rows.Pairwise Row.Precedes := by
  unfold PlainPage.rows
  rw [List.pairwise_filterMap, List.pairwise_iff_getElem]
  intro i j i_lt j_lt lt row here other there
  have here := h.row i row (List.getElem?_eq_some_iff.mpr ⟨i_lt, here⟩)
  have there := h.row j other (List.getElem?_eq_some_iff.mpr ⟨j_lt, there⟩)
  rw [h.length_eq] at i_lt j_lt
  refine ⟨_, _, here.2.2.2, there.2.2.2, rfl, .inr ⟨rfl, ?_⟩⟩
  rw [UInt16.lt_iff_toNat_lt, slot_rowId i_lt, slot_rowId j_lt]
  exact lt

end TableFile

/-! ## Rows of sound contents -/

namespace Contents

/-- The row is at the place that it names. -/
def Live (contents : Contents) (row : Row) : Prop :=
  ∃ id page, row.id = some id ∧ contents.page? id.page = some page ∧ page[id.slot.toNat]? = some (some row)

variable {contents : Contents} {tables : Tables} {file : TableFile} {number : Nat} {page : PlainPage} {row : Row}

theorem Sound.live (h : contents.Sound tables) (mem : file ∈ tables.files)
    (room : (contents file.id).length ≤ UInt32.size) (here : (contents file.id)[number]? = some page)
    (row_mem : row ∈ page.rows) :
    contents.Live row ∧ ∃ id, row.id = some id ∧ id.page.table = file.id ∧ id.page.number.toNat = number := by
  obtain ⟨slot, slot_lt, slot_eq, id_eq⟩ := (h file mem number page here).slot_of_mem row_mem
  have number_eq : (file.rowId number slot).page.number.toNat = number :=
    TableFile.number_rowId (Nat.lt_of_lt_of_le (List.getElem?_eq_some_iff.mp here).1 room) slot
  refine ⟨⟨_, page, id_eq, ?_, ?_⟩, _, id_eq, rfl, number_eq⟩
  · rw [page?, number_eq]
    exact here
  · rw [TableFile.slot_rowId slot_lt, slot_eq]

theorem Live.mem_rowsFrom {table : TableId} {first last : Nat} (live : contents.Live row) {id : RowId}
    (id_eq : row.id = some id) (table_eq : id.page.table = table) (le : first ≤ id.page.number.toNat)
    (lt : id.page.number.toNat < last) : row ∈ (contents table).rowsFrom first last := by
  obtain ⟨id', page, id_eq', page_eq, slot_eq⟩ := live
  cases id_eq.symm.trans id_eq'
  subst table_eq
  exact PlainTable.mem_rowsFrom.mpr ⟨_, page, le, lt, page_eq, PlainPage.mem_rows slot_eq⟩

theorem Sound.precedes (h : contents.Sound tables) (mem : file ∈ tables.files)
    (room : (contents file.id).length ≤ UInt32.size) (first last : Nat) :
    ((contents file.id).rowsFrom first last).Pairwise Row.Precedes := by
  unfold PlainTable.rowsFrom PlainTable.rows
  have page_eq : ∀ {i : Nat} {page : PlainPage}, (((contents file.id).drop first).take (last - first))[i]? = some page →
      (contents file.id)[first + i]? = some page := by
    intro i page here
    rw [List.getElem?_take, Option.ite_none_right_eq_some, List.getElem?_drop] at here
    exact here.2
  rw [List.pairwise_flatMap]
  constructor
  · intro page page_mem
    obtain ⟨i, here⟩ := List.mem_iff_getElem?.mp page_mem
    exact (h file mem _ page (page_eq here)).precedes
  · rw [List.pairwise_iff_getElem]
    intro i j i_lt j_lt lt row row_mem other other_mem
    obtain ⟨-, id, id_eq, table_eq, number_eq⟩ := h.live mem room (page_eq (List.getElem?_eq_getElem i_lt)) row_mem
    obtain ⟨-, id', id_eq', table_eq', number_eq'⟩ :=
      h.live mem room (page_eq (List.getElem?_eq_getElem j_lt)) other_mem
    refine ⟨id, id', id_eq, id_eq', table_eq.trans table_eq'.symm, .inl ?_⟩
    rw [UInt32.lt_iff_toNat_lt, number_eq, number_eq']
    omega

end Contents

theorem PoolId.Shows.sound {pool : PoolId} {tables : Tables} {capacity : Nat} {current : Contents} {store : Store}
    (h : pool.Shows tables capacity current store) : current.Sound tables := by
  obtain ⟨saved, entries, represents⟩ := h
  exact represents.mirrors.current_sound

end RowStore
