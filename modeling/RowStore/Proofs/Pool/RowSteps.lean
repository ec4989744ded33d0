import RowStore.Proofs.Pool.Residents
import RowStore.Store.Rows

/-!
# Storing and removing rows in a pool

A row stored through a pool is stored where the plain table stores it, and a row removed through a pool is removed where
the plain table removes it.
-/

namespace RowStore

/-! ## Room in plain tables -/

namespace PlainTable

theorem put_eq_set {table : PlainTable} {number : Nat} {page : PlainPage} (here : table[number]? = some page)
    (slot : Nat) (row : Option Row) : table.put number slot row = table.set number (page.set slot row) := by
  rw [put, List.modify_eq_set, here]
  rfl

theorem free?_drop {table : PlainTable} {number : Nat} {page : PlainPage} (here : table[number]? = some page) :
    free? (table.drop number) =
      match page.free? with
      | some slot => some (0, slot)
      | none => (free? (table.drop (number + 1))).map fun (n, slot) => (n + 1, slot) := by
  obtain ⟨lt, rfl⟩ := List.getElem?_eq_some_iff.mp here
  rw [List.drop_eq_getElem_cons lt]
  rfl

end PlainTable

theorem TableFile.free?_blankPage {file : TableFile} (opened : file.Opened) : file.blankPage.free? = some 0 := by
  obtain ⟨n, slots_eq⟩ := Nat.exists_eq_succ_of_ne_zero (Nat.ne_of_gt opened.sizes.2.2)
  rw [blankPage, slots_eq, List.replicate_succ]
  rfl

theorem Contents.setTable_setTable (contents : Contents) (table : TableId) (pages pages' : PlainTable) :
    (contents.setTable table pages).setTable table pages' = contents.setTable table pages' := by
  funext other
  unfold setTable
  split <;> rfl

namespace PoolId

/-- The pages are `current` now, wherever they are. -/
def Shows (pool : PoolId) (tables : Tables) (capacity : Nat) (current : Contents) (store : Store) : Prop :=
  ∃ saved entries, pool.Represents tables capacity saved current entries store

namespace Shows

variable {pool : PoolId} {tables : Tables} {capacity : Nat} {current : Contents} {store : Store} {file : TableFile}
  {row : Row}

theorem length_le (h : pool.Shows tables capacity current store) (mem : file ∈ tables.files) :
    (current file.id).length ≤ UInt32.size := by
  obtain ⟨saved, entries, represents⟩ := h
  rw [← represents.mirrors.counts]
  exact represents.mirrors.numbered file mem

theorem pageCount_eq (h : pool.Shows tables capacity current store) (mem : file ∈ tables.files) :
    file.pageCount store = .ok (UInt32.ofNat (current file.id).length) store := by
  obtain ⟨saved, entries, represents⟩ := h
  exact represents.mirrors.pageCount_eq mem

theorem lookUp_eq (h : pool.Shows tables capacity current store) (table : TableId) :
    store.catalog.file table = TableFile.among tables.files table := by
  obtain ⟨saved, entries, represents⟩ := h
  exact represents.mirrors.catalog_eq table

theorem toNat_ofNat_of_lt {number count : Nat} (lt : number < count) (le : count ≤ UInt32.size) :
    (UInt32.ofNat number).toNat = number := by
  rw [UInt32.toNat_ofNat']
  exact Nat.mod_eq_of_lt (Nat.lt_of_lt_of_le lt le)

/-! ## Storing a row on a page -/

/-- What is done to a page that a row may go to. -/
def placement (txn : TxnId) (row : Row) (page : Page) : Except Failure (Page × Option Row) :=
  match page.insert row with
  | .ok (page, id) => .ok (page.markDirty (some txn), some (row.withId (some id)))
  | .error (.pageFull _) => .ok (page, none)
  | .error e => .error (.refused e)

variable {number : Nat} {rows : PlainPage}

theorem insertOn_full (h : pool.Shows tables capacity current store) (mem : file ∈ tables.files) (txn : TxnId)
    (schema_eq : row.schema = file.schema) (here : (current file.id)[number]? = some rows)
    (full : rows.free? = none) :
    ∃ store', TableFile.insertOn pool txn (file.pageId (UInt32.ofNat number)) row store = .ok none store' ∧
      pool.Shows tables capacity current store' := by
  have number_eq := toNat_ofNat_of_lt (List.getElem?_eq_some_iff.mp here).1 (h.length_le mem)
  obtain ⟨saved, entries, represents⟩ := h
  have here' : current.page? (file.pageId (UInt32.ofNat number)) = some rows := by
    rw [Contents.page?, TableFile.pageId, number_eq, here]
  have stores := represents.mirrors.current_sound file mem number rows here
  rw [← number_eq] at stores
  have change_eq : ∀ mark, placement txn row ((file.page (UInt32.ofNat number).toNat rows).markDirty mark) =
      .ok ((file.page (UInt32.ofNat number).toNat rows).markDirty mark, none) := fun mark => by
    simp only [placement, TableFile.insert_page_full mark schema_eq full]
  obtain ⟨saved', entries', store', mutate_eq, represents'⟩ :=
    represents.mutate_ok mem rfl here' (placement txn row) stores change_eq fun mark none => ⟨none, rfl⟩
  rw [Contents.setPage_eq_self here'] at represents'
  exact ⟨store', mutate_eq, saved', entries', represents'⟩

theorem insertOn_free (h : pool.Shows tables capacity current store) (mem : file ∈ tables.files) (txn : TxnId)
    (made : row.Made) (schema_eq : row.schema = file.schema) (here : (current file.id)[number]? = some rows)
    {slot : Nat} (free : rows.free? = some slot) :
    ∃ store', TableFile.insertOn pool txn (file.pageId (UInt32.ofNat number)) row store =
        .ok (some (row.withId (some (file.rowId number slot)))) store' ∧
      pool.Shows tables capacity (current.setTable file.id
        ((current file.id).put number slot (some (row.withId (some (file.rowId number slot)))))) store' := by
  have number_eq := toNat_ofNat_of_lt (List.getElem?_eq_some_iff.mp here).1 (h.length_le mem)
  obtain ⟨saved, entries, represents⟩ := h
  have here' : current.page? (file.pageId (UInt32.ofNat number)) = some rows := by
    rw [Contents.page?, TableFile.pageId, number_eq, here]
  have stores : file.Stores (UInt32.ofNat number).toNat
      (rows.set slot (some (row.withId (some (file.rowId number slot))))) := by
    rw [number_eq]
    exact (represents.mirrors.current_sound file mem number rows here).insert made schema_eq slot
  have change_eq : ∀ mark, placement txn row ((file.page (UInt32.ofNat number).toNat rows).markDirty mark) =
      .ok ((file.page (UInt32.ofNat number).toNat
        (rows.set slot (some (row.withId (some (file.rowId number slot)))))).markDirty (some txn),
        some (row.withId (some (file.rowId number slot)))) := fun mark => by
    rw [number_eq]
    simp only [placement, TableFile.insert_page mark schema_eq free]
    rfl
  obtain ⟨saved', entries', store', mutate_eq, represents'⟩ :=
    represents.mutate_ok mem rfl here' (placement txn row) stores change_eq fun mark marked => by cases marked
  refine ⟨store', mutate_eq, saved', entries', ?_⟩
  rw [PlainTable.put_eq_set here]
  have set_eq : current.setPage (file.pageId (UInt32.ofNat number))
      (rows.set slot (some (row.withId (some (file.rowId number slot))))) = current.setTable file.id
        ((current file.id).set number (rows.set slot (some (row.withId (some (file.rowId number slot)))))) := by
    rw [Contents.setPage, TableFile.pageId, number_eq]
  rw [← set_eq]
  exact represents'

/-! ## Storing a row in a table -/

theorem insertAmong_full (h : pool.Shows tables capacity current store) (mem : file ∈ tables.files) (txn : TxnId)
    (schema_eq : row.schema = file.schema) {left : Nat} (sum_eq : number + left = (current file.id).length)
    (full : PlainTable.free? ((current file.id).drop number) = none) :
    ∃ store', file.insertAmong pool txn row left (UInt32.ofNat number) store = .ok none store' ∧
      pool.Shows tables capacity current store' := by
  induction left generalizing number store with
  | zero => exact ⟨store, rfl, h⟩
  | succ left ih =>
    have lt : number < (current file.id).length := by omega
    have here := List.getElem?_eq_getElem lt
    rw [PlainTable.free?_drop here] at full
    cases page_full : PlainPage.free? (current file.id)[number] with
    | some slot => simp [page_full] at full
    | none =>
      simp only [page_full, Option.map_eq_none_iff] at full
      obtain ⟨store₁, insert_eq, shows₁⟩ := h.insertOn_full mem txn schema_eq here page_full
      obtain ⟨store', rest_eq, shows'⟩ := ih shows₁ (by omega) full
      refine ⟨store', ?_, shows'⟩
      unfold TableFile.insertAmong
      rw [Action.bind_ok insert_eq, ← rest_eq, UInt32.ofNat_add]
      rfl

theorem insertAmong_free (h : pool.Shows tables capacity current store) (mem : file ∈ tables.files) (txn : TxnId)
    (made : row.Made) (schema_eq : row.schema = file.schema) {left : Nat}
    (sum_eq : number + left = (current file.id).length) {ahead slot : Nat}
    (free : PlainTable.free? ((current file.id).drop number) = some (ahead, slot)) :
    ∃ store', file.insertAmong pool txn row left (UInt32.ofNat number) store =
        .ok (some (row.withId (some (file.rowId (number + ahead) slot)))) store' ∧
      pool.Shows tables capacity (current.setTable file.id ((current file.id).put (number + ahead) slot
        (some (row.withId (some (file.rowId (number + ahead) slot)))))) store' := by
  induction left generalizing number ahead store with
  | zero =>
    rw [List.drop_of_length_le (by omega)] at free
    cases free
  | succ left ih =>
    have lt : number < (current file.id).length := by omega
    have here := List.getElem?_eq_getElem lt
    rw [PlainTable.free?_drop here] at free
    unfold TableFile.insertAmong
    cases page_free : PlainPage.free? (current file.id)[number] with
    | some slot' =>
      simp only [page_free, Option.some.injEq, Prod.mk.injEq] at free
      obtain ⟨rfl, rfl⟩ := free
      obtain ⟨store', insert_eq, shows'⟩ := h.insertOn_free mem txn made schema_eq here page_free
      exact ⟨store', by rw [Action.bind_ok insert_eq]; rfl, shows'⟩
    | none =>
      simp only [page_free, Option.map_eq_some_iff] at free
      obtain ⟨⟨ahead', slot'⟩, free', place_eq⟩ := free
      cases place_eq
      obtain ⟨store₁, insert_eq, shows₁⟩ := h.insertOn_full mem txn schema_eq here page_free
      obtain ⟨store', rest_eq, shows'⟩ := ih shows₁ (by omega) free'
      have place_eq : number + 1 + ahead' = number + (ahead' + 1) := by omega
      rw [place_eq] at rest_eq shows'
      refine ⟨store', ?_, shows'⟩
      rw [Action.bind_ok insert_eq, ← rest_eq, UInt32.ofNat_add]
      rfl

theorem insertAppending_ok (h : pool.Shows tables capacity current store) (mem : file ∈ tables.files) (txn : TxnId)
    (made : row.Made) (schema_eq : row.schema = file.schema) (room : (current file.id).length < UInt32.size)
    (fits : ((current file.id).length + 1) * file.pageSize ≤ Disk.maxFileBytes) (left : Nat) :
    ∃ store', file.insertAppending pool txn row (left + 1) store =
        .ok (row.withId (some (file.rowId (current file.id).length 0))) store' ∧
      pool.Shows tables capacity (current.setTable file.id ((current file.id ++ [file.blankPage]).put
        (current file.id).length 0 (some (row.withId (some (file.rowId (current file.id).length 0)))))) store' := by
  obtain ⟨saved, entries, represents⟩ := h
  obtain ⟨disk, meters, append_eq, mirrors⟩ := represents.mirrors.append mem room fits
  have shows₁ : pool.Shows tables capacity (current.addPage file.id file.blankPage) { store with disk, meters } :=
    ⟨_, entries, represents.pos, represents.keeps.congr _ rfl, mirrors⟩
  have added : current.addPage file.id file.blankPage file.id = current file.id ++ [file.blankPage] :=
    Contents.setTable_self ..
  have here : (current.addPage file.id file.blankPage file.id)[(current file.id).length]? = some file.blankPage := by
    rw [added, List.getElem?_concat_length]
  obtain ⟨store', insert_eq, shows'⟩ := shows₁.insertOn_free mem txn made schema_eq here
    (TableFile.free?_blankPage (tables.opened file mem))
  rw [added, Contents.addPage, Contents.setTable_setTable] at shows'
  refine ⟨store', ?_, shows'⟩
  unfold TableFile.insertAppending
  rw [Action.bind_ok append_eq, Action.bind_ok insert_eq]
  rfl

theorem insertAppending_error (h : pool.Shows tables capacity current store) (mem : file ∈ tables.files)
    (txn : TxnId) (room : (current file.id).length < UInt32.size)
    (unfit : Disk.maxFileBytes < ((current file.id).length + 1) * file.pageSize) (left : Nat) :
    file.insertAppending pool txn row (left + 1) store = .error (.refused .fileSystem) store := by
  obtain ⟨saved, entries, represents⟩ := h
  unfold TableFile.insertAppending
  rw [Action.bind_error (represents.mirrors.append_error mem room unfit)]

theorem fileInsert_free (h : pool.Shows tables capacity current store) (mem : file ∈ tables.files) (txn : TxnId)
    (made : row.Made) (schema_eq : row.schema = file.schema) (room : (current file.id).length < UInt32.size)
    {number slot : Nat} (free : (current file.id).free? = some (number, slot)) :
    ∃ store', file.insert pool txn row store = .ok (row.withId (some (file.rowId number slot))) store' ∧
      pool.Shows tables capacity (current.setTable file.id ((current file.id).put number slot
        (some (row.withId (some (file.rowId number slot)))))) store' := by
  have count_eq : (UInt32.ofNat (current file.id).length).toNat = (current file.id).length :=
    toNat_ofNat_of_lt room (Nat.le_refl _)
  have sum_eq : 0 + (current file.id).length = (current file.id).length := Nat.zero_add _
  obtain ⟨store', insert_eq, shows'⟩ := h.insertAmong_free mem txn made schema_eq sum_eq free
  rw [Nat.zero_add] at insert_eq shows'
  refine ⟨store', ?_, shows'⟩
  unfold TableFile.insert
  simp only [schema_eq, ne_eq, not_true, ite_false]
  rw [Action.bind_ok (h.pageCount_eq mem), count_eq]
  exact Action.bind_ok insert_eq

theorem fileInsert_full (h : pool.Shows tables capacity current store) (mem : file ∈ tables.files) (txn : TxnId)
    (schema_eq : row.schema = file.schema) (room : (current file.id).length < UInt32.size)
    (full : (current file.id).free? = none) :
    ∃ store', file.insert pool txn row store = file.insertAppending pool txn row UInt32.size store' ∧
      pool.Shows tables capacity current store' := by
  have count_eq : (UInt32.ofNat (current file.id).length).toNat = (current file.id).length :=
    toNat_ofNat_of_lt room (Nat.le_refl _)
  have sum_eq : 0 + (current file.id).length = (current file.id).length := Nat.zero_add _
  obtain ⟨store', insert_eq, shows'⟩ := h.insertAmong_full mem txn schema_eq sum_eq full
  refine ⟨store', ?_, shows'⟩
  unfold TableFile.insert
  simp only [schema_eq, ne_eq, not_true, ite_false]
  rw [Action.bind_ok (h.pageCount_eq mem), count_eq]
  exact Action.bind_ok insert_eq

/-! ## The calls of the pool -/

theorem insert_ok (h : pool.Shows tables capacity current store) (txn : TxnId) (table : TableId) (made : row.Made)
    (room : ∀ file ∈ tables.files, (current file.id).length < UInt32.size)
    (fits : ∀ file ∈ tables.files, file.id = table →
      ((current.insert tables.files table row).1 table).length * file.pageSize ≤ Disk.maxFileBytes) :
    ∃ store', (pool.insert txn table row).Ends store (current.insert tables.files table row).2 store' ∧
      pool.Shows tables capacity (current.insert tables.files table row).1 store' := by
  have found := h.lookUp_eq table
  unfold PoolId.insert
  unfold Contents.insert at fits ⊢
  cases among_eq : TableFile.among tables.files table with
  | error e =>
    rw [among_eq] at found
    exact ⟨store, Action.bind_error (Store.lookUp_error found), h⟩
  | ok file =>
    rw [among_eq] at found
    obtain ⟨mem, rfl⟩ := TableFile.mem_of_among among_eq
    simp only [among_eq] at fits ⊢
    by_cases schema_eq : row.schema = file.schema
    · simp only [schema_eq, ne_eq, not_true, ite_false] at fits ⊢
      cases free : (current file.id).free? with
      | some place =>
        obtain ⟨store', insert_eq, shows'⟩ := h.fileInsert_free mem txn made schema_eq (room file mem) free
        simp only [PlainTable.makeRoom, free]
        exact ⟨store', (Action.bind_ok (Store.lookUp_ok found)).trans insert_eq, shows'⟩
      | none =>
        simp only [PlainTable.makeRoom, free] at fits ⊢
        have fits' := fits file mem rfl
        rw [Contents.setTable_self, PlainTable.put, List.length_modify, List.length_append,
          List.length_singleton] at fits'
        obtain ⟨store₁, full_eq, shows₁⟩ := h.fileInsert_full mem txn schema_eq (room file mem) free
        obtain ⟨store', insert_eq, shows'⟩ := shows₁.insertAppending_ok mem txn made schema_eq (room file mem) fits'
          (UInt32.size - 1)
        exact ⟨store', (Action.bind_ok (Store.lookUp_ok found)).trans (full_eq.trans insert_eq), shows'⟩
    · simp only [ne_eq, schema_eq, not_false_eq_true, ite_true]
      refine ⟨store, (Action.bind_ok (Store.lookUp_ok found)).trans ?_, h⟩
      unfold TableFile.insert
      simp only [ne_eq, schema_eq, not_false_eq_true, ite_true]
      rfl

theorem insert_unfit (h : pool.Shows tables capacity current store) (txn : TxnId) (mem : file ∈ tables.files)
    (schema_eq : row.schema = file.schema) (room : (current file.id).length < UInt32.size)
    (full : (current file.id).free? = none)
    (unfit : Disk.maxFileBytes < ((current file.id).length + 1) * file.pageSize) :
    ∃ store', pool.insert txn file.id row store = .error (.refused .fileSystem) store' ∧
      pool.Shows tables capacity current store' := by
  have found := h.lookUp_eq file.id
  rw [tables.among_eq mem] at found
  obtain ⟨store', full_eq, shows'⟩ := h.fileInsert_full mem txn schema_eq room full
  refine ⟨store', ?_, shows'⟩
  unfold PoolId.insert
  rw [Action.bind_ok (Store.lookUp_ok found), full_eq]
  exact shows'.insertAppending_error mem txn room unfit (UInt32.size - 1)

/-! ## Removing a row -/

/-- What is done to the page that a row names. -/
def removal (txn : TxnId) (row : Row) (page : Page) : Except Failure (Page × Unit) :=
  match page.delete row with
  | .ok page => .ok (page.markDirty (some txn), ())
  | .error e => .error (.refused e)

theorem fileDelete_eq (h : pool.Shows tables capacity current store) (mem : file ∈ tables.files) (txn : TxnId)
    (room : (current file.id).length < UInt32.size) {id : RowId} (id_eq : row.id = some id)
    (table_eq : file.id = id.page.table) :
    file.delete pool txn row store =
      match current.page? id.page with
      | none => .error (.refused (.pageOutOfRange id.page)) store
      | some _ => (do pool.mutate id.page (removal txn row); return id.page : Action PageId) store := by
  have count_eq : (UInt32.ofNat (current file.id).length).toNat = (current file.id).length :=
    toNat_ofNat_of_lt room (Nat.le_refl _)
  have count_eq' := h.pageCount_eq mem
  have out_iff : UInt32.ofNat (current file.id).length ≤ id.page.number ↔ current.page? id.page = none := by
    rw [UInt32.le_iff_toNat_le, count_eq, Contents.page?, ← table_eq, List.getElem?_eq_none_iff]
  unfold TableFile.delete
  simp only [id_eq, ← table_eq, ne_eq, not_true, ite_false]
  rw [Action.bind_ok count_eq']
  cases here : current.page? id.page with
  | none =>
    simp only [out_iff.mpr here, ite_true]
    exact Action.bind_error rfl
  | some rows =>
    have inside : ¬UInt32.ofNat (current file.id).length ≤ id.page.number := fun le => by
      rw [out_iff.mp le] at here
      cases here
    simp only [inside, ite_false]
    rfl

theorem mutate_removal (h : pool.Shows tables capacity current store) (mem : file ∈ tables.files) (txn : TxnId)
    {id : RowId} (id_eq : row.id = some id) (table_eq : file.id = id.page.table)
    (here : current.page? id.page = some rows) :
    ∃ store', match rows[id.slot.toNat]? with
      | none => pool.mutate id.page (removal txn row) store = .error (.refused (.rowNotOnPage id.page)) store' ∧
          pool.Shows tables capacity current store'
      | some none =>
          pool.mutate id.page (removal txn row) store = .error (.refused (.slotEmpty id.page id.slot)) store' ∧
          pool.Shows tables capacity current store'
      | some (some _) => pool.mutate id.page (removal txn row) store = .ok () store' ∧
          pool.Shows tables capacity (current.setPage id.page (rows.set id.slot.toNat none)) store' := by
  obtain ⟨saved, entries, represents⟩ := h
  have here' : (current file.id)[id.page.number.toNat]? = some rows := by rw [table_eq]; exact here
  have stores := represents.mirrors.current_sound file mem _ _ here'
  have at_page : id.page = file.pageId (UInt32.ofNat id.page.number.toNat) := by
    rw [TableFile.pageId, UInt32.ofNat_toNat, table_eq]
  cases slot_eq : rows[id.slot.toNat]? with
  | none =>
    obtain ⟨saved', entries', store', mutate_eq, represents'⟩ := represents.mutate_error mem table_eq here
      (removal txn row) fun mark => by
        rw [removal, TableFile.delete_page_out mark id_eq at_page slot_eq]
    exact ⟨store', mutate_eq, saved', entries', represents'⟩
  | some row? =>
    have outcome := fun mark => TableFile.delete_page id_eq at_page slot_eq mark
    cases row? with
    | none =>
      obtain ⟨saved', entries', store', mutate_eq, represents'⟩ := represents.mutate_error mem table_eq here
        (removal txn row) fun mark => by
          rw [removal, outcome mark]
          rfl
      exact ⟨store', mutate_eq, saved', entries', represents'⟩
    | some _ =>
      have change_eq : ∀ mark, removal txn row ((file.page id.page.number.toNat rows).markDirty mark) =
          .ok ((file.page id.page.number.toNat (rows.set id.slot.toNat none)).markDirty (some txn), ()) := by
        intro mark
        rw [removal, outcome mark]
        rfl
      obtain ⟨saved', entries', store', mutate_eq, represents'⟩ := represents.mutate_ok mem table_eq here
        (removal txn row) (stores.delete id.slot.toNat) change_eq fun mark marked => by cases marked
      exact ⟨store', mutate_eq, saved', entries', represents'⟩

theorem delete_ok (h : pool.Shows tables capacity current store) (txn : TxnId) (row : Row)
    (room : ∀ file ∈ tables.files, (current file.id).length < UInt32.size) :
    ∃ store', (pool.delete txn row).Ends store (current.delete tables.files row).2 store' ∧
      pool.Shows tables capacity (current.delete tables.files row).1 store' := by
  unfold PoolId.delete Contents.delete
  cases id_eq : row.id with
  | none => exact ⟨store, rfl, h⟩
  | some id =>
    have found := h.lookUp_eq id.page.table
    cases among_eq : TableFile.among tables.files id.page.table with
    | error e =>
      rw [among_eq] at found
      simp only [among_eq]
      exact ⟨store, Action.bind_error (Store.lookUp_error found), h⟩
    | ok file =>
      rw [among_eq] at found
      obtain ⟨mem, table_eq⟩ := TableFile.mem_of_among among_eq
      have reached := h.fileDelete_eq mem txn (room file mem) id_eq table_eq
      cases here : current.page? id.page with
      | none =>
        simp only [here] at reached
        simp only [among_eq, here]
        exact ⟨store, (Action.bind_ok (Store.lookUp_ok found)).trans (Action.discard_error reached), h⟩
      | some rows =>
        simp only [here] at reached
        obtain ⟨store', outcome⟩ := h.mutate_removal mem txn id_eq table_eq here
        refine ⟨store', ?_⟩
        cases slot_eq : rows[id.slot.toNat]? with
        | none =>
          simp only [slot_eq] at outcome
          simp only [among_eq, here, slot_eq]
          exact ⟨(Action.bind_ok (Store.lookUp_ok found)).trans
            (Action.discard_error (reached.trans (Action.bind_error outcome.1))), outcome.2⟩
        | some row? =>
          cases row? with
          | none =>
            simp only [slot_eq] at outcome
            simp only [among_eq, here, slot_eq]
            exact ⟨(Action.bind_ok (Store.lookUp_ok found)).trans
              (Action.discard_error (reached.trans (Action.bind_error outcome.1))), outcome.2⟩
          | some _ =>
            simp only [slot_eq] at outcome
            simp only [among_eq, here, slot_eq, PlainTable.put_eq_set here]
            exact ⟨(Action.bind_ok (Store.lookUp_ok found)).trans
              (Action.discard_ok (reached.trans (Action.bind_ok outcome.1))), outcome.2⟩

/-! ## Reading a page -/

theorem get_ok (h : pool.Shows tables capacity current store) (id : PageId) :
    ∃ store', (pool.get id).Ends store (current.get tables.files id) store' ∧
      pool.Shows tables capacity current store' := by
  obtain ⟨saved, entries, represents⟩ := h
  unfold PoolId.get Contents.get
  cases among_eq : TableFile.among tables.files id.table with
  | error e =>
    obtain ⟨store', fetch_eq, represents'⟩ := represents.fetch_unregistered among_eq
    exact ⟨store', Action.bind_error fetch_eq, saved, entries, represents'⟩
  | ok file =>
    obtain ⟨mem, table_eq⟩ := TableFile.mem_of_among among_eq
    cases here : current.page? id with
    | none =>
      obtain ⟨store', fetch_eq, represents'⟩ := represents.fetch_missing mem table_eq here
      exact ⟨store', Action.bind_error fetch_eq, saved, entries, represents'⟩
    | some rows =>
      obtain ⟨frame, saved', entries', store', fetch_eq, represents'⟩ := represents.fetch_ok mem table_eq here
      obtain ⟨mark, frame_eq, -⟩ := represents'.fetched mem table_eq here List.mem_cons_self
      refine ⟨store', (Action.bind_ok fetch_eq).trans ((Action.bind_ok (FrameId.page_eq frame_eq)).trans ?_),
        saved', _, represents'⟩
      rw [TableFile.rows_page]
      rfl

end Shows

end PoolId

end RowStore
