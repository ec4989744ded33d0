import RowStore.Proofs.Pool.Places

/-!
# Removing rows of a table

Rows are known by their places. So removing rows one after another empties the slots of these rows and no others.
-/

namespace RowStore

theorem Row.Precedes.id_ne {row other : Row} (h : row.Precedes other) : row.id ≠ other.id := by
  obtain ⟨id, id', id_eq, id_eq', -, before⟩ := h
  rw [id_eq, id_eq']
  rintro ⟨⟩
  rcases before with lt | ⟨-, lt⟩
  · exact UInt32.lt_irrefl _ lt
  · exact UInt16.lt_irrefl _ lt

/-! ## Pages without some rows -/

namespace PlainPage

/-- Every slot with one of the rows is emptied. -/
def without (page : PlainPage) (rows : List Row) : PlainPage :=
  page.map fun slot => slot.filter fun row => row.id ∉ rows.map Row.id

variable {page : PlainPage} {row : Row} {rows : List Row} {slot : Nat}

theorem without_of_apart (apart : ∀ row ∈ page.rows, row.id ∉ rows.map Row.id) : page.without rows = page := by
  refine (List.map_congr_left fun slot mem => ?_).trans (List.map_id page)
  cases slot with
  | none => rfl
  | some row => exact if_pos (decide_eq_true (apart row (List.mem_filterMap.mpr ⟨some row, mem, rfl⟩)))

theorem without_append (page : PlainPage) (rows rows' : List Row) :
    page.without (rows ++ rows') = (page.without rows).without rows' := by
  unfold without
  rw [List.map_map]
  refine List.map_congr_left fun slot _ => ?_
  rw [Function.comp_apply, Option.filter_filter, List.map_append]
  congr 1
  funext row
  simp only [List.mem_append, not_or, Bool.decide_and]

theorem rows_without (page : PlainPage) (rows : List Row) :
    (page.without rows).rows = page.rows.filter fun row => row.id ∉ rows.map Row.id := by
  unfold without PlainPage.rows
  rw [List.filterMap_map, List.filter_filterMap]
  rfl

theorem without_singleton {stored : Row} (here : page[slot]? = some (some stored)) (same_id : stored.id = row.id)
    (alone : ∀ (i : Nat) (other : Row), page[i]? = some (some other) → other.id = row.id → i = slot) :
    page.without [row] = page.set slot none := by
  refine List.ext_getElem? fun i => ?_
  rw [without, List.getElem?_map, List.getElem?_set]
  by_cases same : slot = i
  · subst same
    rw [if_pos rfl, if_pos (List.getElem?_eq_some_iff.mp here).1, here]
    exact congrArg some (if_neg (by simp [same_id]))
  · rw [if_neg same]
    cases there : page[i]? with
    | none => rfl
    | some slot? =>
      cases slot? with
      | none => rfl
      | some other =>
        have ne : other.id ≠ row.id := fun same_id' => same (alone i other there same_id').symm
        exact congrArg some (if_pos (by simpa using ne))

end PlainPage

theorem TableFile.Stores.without {file : TableFile} {number : Nat} {page : PlainPage} (h : file.Stores number page)
    (rows : List Row) : file.Stores number (page.without rows) where
  length_eq := by rw [PlainPage.without, List.length_map, h.length_eq]
  row := by
    intro i row here
    rw [PlainPage.without, List.getElem?_map] at here
    obtain ⟨slot, slot_eq, kept⟩ := Option.map_eq_some_iff.mp here
    rw [Option.filter_eq_some_iff] at kept
    exact h.row i row (kept.1 ▸ slot_eq)

/-! ## Tables without some rows -/

namespace Contents

/-- Every slot of the table with one of the rows is emptied. -/
def without (contents : Contents) (table : TableId) (rows : List Row) : Contents :=
  contents.setTable table ((contents table).map fun page => page.without rows)

variable {contents : Contents} {tables : Tables} {file : TableFile} {row : Row} {rows : List Row}

theorem getElem?_without (contents : Contents) (table : TableId) (rows : List Row) (number : Nat) :
    (contents.without table rows table)[number]? = ((contents table)[number]?).map fun page => page.without rows := by
  rw [without, setTable_self, List.getElem?_map]

theorem length_without (contents : Contents) (table : TableId) (rows : List Row) (other : TableId) :
    (contents.without table rows other).length = (contents other).length := by
  unfold without setTable
  split
  · next same => rw [List.length_map, same]
  · rfl

theorem rows_without (contents : Contents) (table : TableId) (rows : List Row) :
    (contents.without table rows table).rows = (contents table).rows.filter fun row => row.id ∉ rows.map Row.id := by
  rw [without, setTable_self]
  unfold PlainTable.rows
  rw [List.flatMap_map, List.filter_flatMap]
  exact List.flatMap_congr fun page _ => page.rows_without rows

theorem page_without {table : TableId} {number : Nat}
    (apart : ∀ page, (contents table)[number]? = some page → ∀ row ∈ page.rows, row.id ∉ rows.map Row.id) :
    (contents.without table rows table)[number]? = (contents table)[number]? := by
  rw [getElem?_without]
  cases here : (contents table)[number]? with
  | none => rfl
  | some page => exact congrArg some (PlainPage.without_of_apart (apart page here))

theorem without_nil (contents : Contents) (table : TableId) : contents.without table [] = contents := by
  funext other
  by_cases same : other = table
  · subst same
    exact List.ext_getElem? fun number => page_without fun _ _ _ _ => List.not_mem_nil
  · exact setTable_of_ne _ _ same

theorem without_append (contents : Contents) (table : TableId) (rows rows' : List Row) :
    contents.without table (rows ++ rows') = (contents.without table rows).without table rows' := by
  rw [without, without, without, setTable_setTable, setTable_self, List.map_map]
  congr 1
  exact List.map_congr_left fun page _ => page.without_append rows rows'

theorem Sound.without (h : contents.Sound tables) (table : TableId) (rows : List Row) :
    (contents.without table rows).Sound tables := by
  intro file mem number page here
  by_cases same : file.id = table
  · subst same
    rw [getElem?_without] at here
    obtain ⟨before, before_eq, rfl⟩ := Option.map_eq_some_iff.mp here
    exact (h file mem number before before_eq).without rows
  · rw [Contents.without, setTable_of_ne _ _ same] at here
    exact h file mem number page here

/-! ## Places -/

theorem Sound.nodup_ids (h : contents.Sound tables) (mem : file ∈ tables.files)
    (room : (contents file.id).length ≤ UInt32.size) : ((contents file.id).rows.map Row.id).Nodup := by
  have ordered := h.precedes mem room 0 (contents file.id).length
  rw [PlainTable.rowsFrom, List.drop_zero, Nat.sub_zero, List.take_length] at ordered
  exact List.pairwise_map.mpr (ordered.imp Row.Precedes.id_ne)

theorem Sound.place_eq (h : contents.Sound tables) (mem : file ∈ tables.files)
    (room : (contents file.id).length ≤ UInt32.size) {number slot : Nat} {page : PlainPage}
    (page_eq : (contents file.id)[number]? = some page) (slot_eq : page[slot]? = some (some row)) {id : RowId}
    (id_eq : row.id = some id) :
    id.page.table = file.id ∧ id.page.number.toNat = number ∧ id.slot.toNat = slot := by
  have stores := h file mem number page page_eq
  have slot_lt := (List.getElem?_eq_some_iff.mp slot_eq).1
  rw [stores.length_eq] at slot_lt
  cases (stores.row slot row slot_eq).2.2.2.symm.trans id_eq
  exact ⟨rfl, TableFile.number_rowId (Nat.lt_of_lt_of_le (List.getElem?_eq_some_iff.mp page_eq).1 room) slot,
    TableFile.slot_rowId slot_lt number⟩

/-! ## Removing one row -/

theorem Sound.without_singleton (h : contents.Sound tables) (mem : file ∈ tables.files)
    (room : (contents file.id).length ≤ UInt32.size) {number slot : Nat} {page : PlainPage} {stored : Row}
    (page_eq : (contents file.id)[number]? = some page) (slot_eq : page[slot]? = some (some stored)) {id : RowId}
    (id_eq : stored.id = some id) (same_id : stored.id = row.id) :
    contents.without file.id [row] = contents.setTable file.id ((contents file.id).put number slot none) := by
  obtain ⟨-, number_eq, slot_at⟩ := h.place_eq mem room page_eq slot_eq id_eq
  have alone : ∀ {i j : Nat} {page' : PlainPage} {other : Row}, (contents file.id)[i]? = some page' →
      page'[j]? = some (some other) → other.id = row.id → i = number ∧ j = slot := by
    intro i j page' other page_eq' slot_eq' same
    obtain ⟨-, number_eq', slot_at'⟩ := h.place_eq mem room page_eq' slot_eq' (same.trans (same_id.symm.trans id_eq))
    exact ⟨number_eq'.symm.trans number_eq, slot_at'.symm.trans slot_at⟩
  rw [Contents.without, PlainTable.put_eq_set page_eq]
  congr 1
  refine List.ext_getElem? fun i => ?_
  rw [List.getElem?_map, List.getElem?_set]
  by_cases same : number = i
  · subst same
    rw [if_pos rfl, if_pos (List.getElem?_eq_some_iff.mp page_eq).1, page_eq]
    exact congrArg some (PlainPage.without_singleton slot_eq same_id fun j other slot_eq' same =>
      (alone page_eq slot_eq' same).2)
  · rw [if_neg same]
    cases page_eq' : (contents file.id)[i]? with
    | none => rfl
    | some page' =>
      refine congrArg some (PlainPage.without_of_apart fun other other_mem => ?_)
      obtain ⟨j, -, slot_eq', -⟩ := (h file mem i page' page_eq').slot_of_mem other_mem
      rw [List.map_singleton, List.mem_singleton]
      exact fun same_id' => same (alone page_eq' slot_eq' same_id').1.symm

theorem Sound.delete_ok (h : contents.Sound tables) (mem : file ∈ tables.files)
    (room : (contents file.id).length ≤ UInt32.size) (there : row.id ∈ (contents file.id).rows.map Row.id) :
    contents.delete tables.files row = (contents.without file.id [row], .ok ()) := by
  obtain ⟨stored, stored_mem, same_id⟩ := List.mem_map.mp there
  obtain ⟨page, page_mem, stored_mem⟩ := List.mem_flatMap.mp stored_mem
  obtain ⟨number, page_eq⟩ := List.mem_iff_getElem?.mp page_mem
  obtain ⟨slot, slot_lt, slot_eq, id_eq⟩ := (h file mem number page page_eq).slot_of_mem stored_mem
  have ⟨_, number_eq, slot_at⟩ := h.place_eq mem room page_eq slot_eq id_eq
  have number_eq : (UInt32.ofNat number).toNat = number := number_eq
  have slot_at : (UInt16.ofNat slot).toNat = slot := slot_at
  rw [h.without_singleton mem room page_eq slot_eq id_eq same_id]
  unfold delete page?
  rw [← same_id, id_eq]
  simp only [TableFile.rowId, TableFile.pageId, tables.among_eq mem, number_eq, slot_at, page_eq, slot_eq]

end Contents

end RowStore
