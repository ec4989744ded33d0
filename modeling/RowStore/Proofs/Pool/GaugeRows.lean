import RowStore.Proofs.Codec.Slots
import RowStore.Proofs.Pool.GaugeSteps

/-!
# Free slots while rows are stored

Where the free slots of all pages are known, so is the page that takes a row. Only where every page is full is a page
added, and that page is not in memory and has a free slot.
-/

namespace RowStore

open PoolId.Shows (placement)

theorem Page.placement_cases {page : Page} {row : Row} (made : row.Made) (schema_eq : row.schema = page.schema)
    (txn : TxnId) :
    page.freeCount = 0 ∧ placement txn row page = .ok (page, none) ∨
      ∃ free page' stored, page.freeCount = free + 1 ∧ placement txn row page = .ok (page', some stored) ∧
        ∀ marks, page.Altered page' marks := by
  unfold placement
  cases inserted : page.insert row with
  | ok result =>
    obtain ⟨page', rowId⟩ := result
    obtain ⟨-, index, first⟩ := insert_isOk_iff.mp ⟨page', rowId, inserted⟩
    have some_free : page.freeCount ≠ 0 := fun full => by
      rw [(firstFree?_eq_none_iff page).mpr full] at first
      cases first
    obtain ⟨free, free_eq⟩ := Nat.exists_eq_succ_of_ne_zero some_free
    exact .inr ⟨free, _, _, free_eq, rfl, fun _ => altered_insert made inserted txn⟩
  | error e =>
    obtain ⟨id, rfl⟩ := eq_of_insert_error schema_eq inserted
    have none_free : page.firstFree? = none := Option.eq_none_iff_forall_ne_some.mpr fun index first => by
      obtain ⟨page', rowId, stored⟩ := insert_isOk_iff.mpr ⟨schema_eq, index, first⟩
      cases inserted.symm.trans stored
    exact .inl ⟨(firstFree?_eq_none_iff page).mp none_free, rfl⟩

/-- The ids of `left` pages of a file, from page `number` on. -/
def TableFile.pageIds (file : TableFile) (number left : Nat) : List PageId :=
  (List.range' number left).map fun n => file.pageId (UInt32.ofNat n)

namespace TableFile

variable (file : TableFile) (pool : PoolId) (txn : TxnId) (row : Row)

/-- Adds one page and stores a row on it. `otherwise` is done where that page has no room. -/
def appendOnce (otherwise : Action Row) : Action Row := do
  let number ← file.appendPage
  match ← insertOn pool txn (file.pageId number) row with
  | some stored => return stored
  | none => otherwise

/-- Stores a row on the first page with room, or on one page that is added. `otherwise` is done where even that page has
no room. -/
def insertElse (otherwise : Action Row) : Action Row := do
  if row.schema ≠ file.schema then Action.fail (.refused (Schema.mismatch file.schema row.schema))
  match ← file.insertAmong pool txn row (← file.pageCount).toNat 0 with
  | some stored => return stored
  | none => file.appendOnce pool txn row otherwise

end TableFile

namespace PoolId

variable {pool : PoolId} {tables : Tables} {capacity : Nat} {lengths : TableId → Nat} {sure : PageId → Prop}
  {free : PageId → Option Nat} {store : Store} {file : TableFile} {row : Row}

/-! ## Looking for a page with room -/

/-- One of these pages has a free slot, or is not sure. -/
def SomeFree (sure : PageId → Prop) (free : PageId → Option Nat) (ids : List PageId) : Prop :=
  ∃ id ∈ ids, sure id → ∃ n, free id = some (n + 1)

/-- All of these pages that are sure are full. -/
def AllFull (sure : PageId → Prop) (free : PageId → Option Nat) (ids : List PageId) : Prop :=
  ∀ id ∈ ids, sure id → free id = some 0

/-- One of these pages, with a free slot, took the row, or all of them are full, and all pages have the slots that they
had. -/
def Tried (pool : PoolId) (tables : Tables) (capacity : Nat) (lengths : TableId → Nat) (sure : PageId → Prop)
    (free : PageId → Option Nat) (ids : List PageId) : Option Row → Store → Prop
  | none, store => pool.Knows tables capacity lengths sure free store ∧ AllFull sure free ids
  | some _, store => pool.Sizes tables capacity lengths sure store ∧ SomeFree sure free ids

theorem insertOn_tried (mem : file ∈ tables.files) (txn : TxnId) (made : row.Made)
    (schema_eq : row.schema = file.schema) (number : UInt32) :
    Triple (pool.Knows tables capacity lengths sure free) (TableFile.insertOn pool txn (file.pageId number) row)
      (pool.Tried tables capacity lengths sure free [file.pageId number])
      (pool.Sizes tables capacity lengths sure) := by
  intro store knows
  change Meets _ _ (pool.alter (file.pageId number) (allOrNothing (placement txn row)) store)
  rcases alter_knows knows (file.pageId number) (allOrNothing (placement txn row)) with
    ⟨failure, after, failed, sizes⟩ | ⟨file', mem', table_eq, page, after, is, free_eq, run, knows'⟩
  · rw [failed]
    exact sizes
  · cases List.inj_on_of_nodup_map tables.ids mem' mem table_eq
    rw [run]
    rcases Page.placement_cases made (schema_eq.trans is.schema_eq.symm) txn with
      ⟨full, placed⟩ | ⟨n, page', stored, some_free, placed, altered⟩
    · simp only [allOrNothing, placed] at knows' ⊢
      refine ⟨knows' (.refl page) _ (.same free_eq), List.forall_mem_singleton.mpr fun still => ?_⟩
      rw [free_eq still, full]
    · simp only [allOrNothing, placed] at knows' ⊢
      refine ⟨⟨_, knows' (altered _) _ (.update _)⟩, _, List.mem_singleton_self _, fun still => ⟨n, ?_⟩⟩
      rw [free_eq still, some_free]

theorem insertAmong_tried (mem : file ∈ tables.files) (txn : TxnId) (made : row.Made)
    (schema_eq : row.schema = file.schema) (left number : Nat) :
    Triple (pool.Knows tables capacity lengths sure free) (file.insertAmong pool txn row left (UInt32.ofNat number))
      (pool.Tried tables capacity lengths sure free (file.pageIds number left))
      (pool.Sizes tables capacity lengths sure) := by
  induction left generalizing number with
  | zero => exact .pure fun _ knows => ⟨knows, fun _ absurd_mem => nomatch absurd_mem⟩
  | succ left ih =>
    have next_eq : UInt32.ofNat number + 1 = UInt32.ofNat (number + 1) := by rw [UInt32.ofNat_add]; rfl
    have ids_eq : file.pageIds number (left + 1) =
        file.pageId (UInt32.ofNat number) :: file.pageIds (number + 1) left := rfl
    rw [ids_eq]
    refine (insertOn_tried mem txn made schema_eq (UInt32.ofNat number)).bind fun stored => ?_
    cases stored with
    | some stored =>
      refine .pure fun after ⟨sizes, id, id_mem, some_free⟩ => ⟨sizes, id, ?_, some_free⟩
      exact List.mem_cons.mpr (.inl (List.mem_singleton.mp id_mem))
    | none =>
      rintro middle ⟨knows, full⟩
      have head := full _ (List.mem_singleton_self _)
      dsimp only
      rw [next_eq]
      refine (ih (number + 1) middle knows).mono (fun stored after rest => ?_) fun _ sizes => sizes
      cases stored with
      | none => exact ⟨rest.1, List.forall_mem_cons.mpr ⟨head, rest.2⟩⟩
      | some stored =>
        obtain ⟨sizes, id, id_mem, some_free⟩ := rest
        exact ⟨sizes, id, List.mem_cons_of_mem _ id_mem, some_free⟩

/-! ## Adding a page -/

/-- The lengths of the files when a page was added behind the last whole page of one. -/
def grown (file : TableFile) (lengths : TableId → Nat) : TableId → Nat :=
  Function.update lengths file.id ((lengths file.id / file.pageSize + 1) * file.pageSize)

/-- The page was added behind the last whole page, it is not in memory, and it is sure that all its slots are free. -/
structure Added (pool : PoolId) (tables : Tables) (capacity : Nat) (lengths : TableId → Nat) (sure : PageId → Prop)
    (free : PageId → Option Nat) (file : TableFile) (number : UInt32) (store : Store) : Prop where
  toNat_eq : number.toNat = lengths file.id / file.pageSize
  absent : ∀ frame, ¬pool.Resident (file.pageId number) frame store
  knows : pool.Knows tables capacity (grown file lengths) (fun id => sure id ∨ id = file.pageId number)
    (Function.update free (file.pageId number) (some file.slots)) store

theorem appendPage_knows (mem : file ∈ tables.files) (room : lengths file.id / file.pageSize < UInt32.size) :
    Triple (pool.Knows tables capacity lengths sure free) file.appendPage
      (pool.Added tables capacity lengths sure free file) (pool.Sizes tables capacity lengths sure) := by
  rintro store ⟨entries, h⟩
  rcases h.gauges.append mem room with
    ⟨failure, failed⟩ | ⟨number, disk, meters, run, toNat_eq, absent, gauges⟩
  · rw [failed]
    exact h.sizes
  · rw [run]
    have keeps := h.keeps.congr { store with disk, meters } rfl
    refine ⟨toNat_eq, fun frame resident => absent ?_, entries, h.pos, keeps, ?_⟩
    · exact List.mem_map_of_mem ((keeps.resident_iff _ _).mp resident)
    · rw [grown, ← toNat_eq]
      exact gauges

theorem not_full_of_added {id : PageId} (mem : file ∈ tables.files) :
    ¬AllFull (fun other => sure other ∨ other = id) (Function.update free id (some file.slots)) [id] := by
  intro full
  have none_free := full id (List.mem_singleton_self id) (.inr rfl)
  rw [Function.update_self] at none_free
  exact Nat.ne_of_gt (tables.opened file mem).sizes.2.2 (Option.some.inj none_free)

theorem pageCount_knows (knows : pool.Knows tables capacity lengths sure free store) (mem : file ∈ tables.files)
    (room : lengths file.id / file.pageSize < UInt32.size) :
    ∃ count : UInt32, count.toNat = lengths file.id / file.pageSize ∧ file.pageCount store = .ok count store := by
  obtain ⟨entries, h⟩ := knows
  obtain ⟨bytes, read_eq, length_eq⟩ := h.gauges.lengths file mem
  refine ⟨_, ?_, TableFile.pageCount_eq read_eq⟩
  rw [TableFile.countPages, length_eq, UInt32.toNat_ofNat']
  exact Nat.mod_eq_of_lt room

section

variable (knows : pool.Knows tables capacity lengths sure free store) (mem : file ∈ tables.files) (txn : TxnId)
  (made : row.Made)

include knows mem made

/-- What is to be done where the page that is added has no room is of no account. -/
theorem appendOnce_congr (schema_eq : row.schema = file.schema)
    (room : lengths file.id / file.pageSize < UInt32.size) (otherwise otherwise' : Action Row) :
    file.appendOnce pool txn row otherwise store = file.appendOnce pool txn row otherwise' store := by
  refine (appendPage_knows mem room store knows).bind_congr fun number middle added => ?_
  refine (insertOn_tried mem txn made schema_eq number middle added.knows).bind_congr fun stored after tried => ?_
  cases stored with
  | some stored => rfl
  | none => exact absurd tried.2 (not_full_of_added mem)

theorem appendOnce_sizes (schema_eq : row.schema = file.schema)
    (room : lengths file.id / file.pageSize < UInt32.size) (otherwise : Action Row) :
    Meets (fun _ => pool.Sizes tables capacity (grown file lengths) sure)
      (fun after => pool.Sizes tables capacity lengths sure after ∨
        pool.Sizes tables capacity (grown file lengths) sure after)
      (file.appendOnce pool txn row otherwise store) := by
  have appended := appendPage_knows mem room store knows
  refine Meets.bind (appended.mono (fun _ _ added => added) fun _ => .inl) fun number middle added => ?_
  have tried := insertOn_tried mem txn made schema_eq number middle added.knows
  refine Meets.bind (tried.mono (fun _ _ tried => tried) fun _ sizes => .inr (sizes.mono fun _ => .inl))
    fun stored after tried => ?_
  cases stored with
  | some stored => exact tried.1.mono fun _ => .inl
  | none => exact absurd tried.2 (not_full_of_added mem)

/-! ## Storing in a table -/

theorem insert_eq_insertElse (room : lengths file.id / file.pageSize < UInt32.size) (otherwise : Action Row) :
    file.insert pool txn row store = file.insertElse pool txn row otherwise store := by
  unfold TableFile.insert TableFile.insertElse
  by_cases schema_eq : row.schema = file.schema
  · obtain ⟨count, toNat_eq, counted⟩ := pageCount_knows knows mem room
    simp only [schema_eq, ne_eq, not_true, ite_false]
    rw [Action.bind_ok counted, Action.bind_ok counted]
    refine (insertAmong_tried mem txn made schema_eq count.toNat 0 store knows).bind_congr fun stored after tried => ?_
    cases stored with
    | some stored => rfl
    -- A page that is added has room for the row, so nothing comes after it.
    | none => exact appendOnce_congr tried.1 mem txn made schema_eq room _ otherwise
  · simp only [schema_eq, ne_eq, not_false_iff, ite_true]
    rfl

/-- Where a row is stored without a page added, a page had room. Where a page was added, every page was full. -/
theorem insert_sizes (room : lengths file.id / file.pageSize < UInt32.size) :
    Meets
      (fun _ after => pool.Sizes tables capacity lengths sure after ∧
          SomeFree sure free (file.pageIds 0 (lengths file.id / file.pageSize)) ∨
        pool.Sizes tables capacity (grown file lengths) sure after ∧
          AllFull sure free (file.pageIds 0 (lengths file.id / file.pageSize)))
      (fun after => pool.Sizes tables capacity lengths sure after ∨
        pool.Sizes tables capacity (grown file lengths) sure after ∧
          AllFull sure free (file.pageIds 0 (lengths file.id / file.pageSize)))
      (file.insert pool txn row store) := by
  rw [insert_eq_insertElse knows mem txn made room (Action.fail (.aborted .pageNumbersExhausted))]
  unfold TableFile.insertElse
  by_cases schema_eq : row.schema = file.schema
  · obtain ⟨count, toNat_eq, counted⟩ := pageCount_knows knows mem room
    simp only [schema_eq, ne_eq, not_true, ite_false]
    rw [Action.bind_ok counted, ← toNat_eq]
    have tried := insertAmong_tried mem txn made schema_eq count.toNat 0 store knows
    refine Meets.bind (tried.mono (fun _ _ tried => tried) fun _ => .inl) fun stored middle tried => ?_
    cases stored with
    | some stored => exact .inl tried
    | none =>
      obtain ⟨knows', full⟩ := tried
      exact (appendOnce_sizes knows' mem txn made schema_eq room _).mono (fun _ _ sizes => .inr ⟨sizes, full⟩)
        fun _ => Or.imp_right fun sizes => ⟨sizes, full⟩
  · simp only [schema_eq, ne_eq, not_false_iff, ite_true]
    exact .inl ⟨free, knows⟩

end

/-! ## Removing a row -/

theorem fileDelete_sizes (file : TableFile) (txn : TxnId) (row : Row) :
    Preserves (pool.Sizes tables capacity lengths sure) (file.delete pool txn row) := by
  unfold TableFile.delete
  cases row.id with
  | none => exact .fail fun _ sizes => sizes
  | some id =>
    dsimp only
    split
    · exact .failThen fun _ sizes => sizes
    · refine Triple.bind (.ofLooks file.pageCount_looks) fun count => ?_
      split
      · exact .failThen fun _ sizes => sizes
      · refine Triple.bind (mutate_sizes id.page fun page page' a changed => ?_) fun _ => .pure fun _ sizes => sizes
        split at changed
        · next deleted =>
          cases changed
          exact Page.altered_delete deleted txn
        · cases changed

theorem delete_sizes (txn : TxnId) (row : Row) :
    Preserves (pool.Sizes tables capacity lengths sure) (pool.delete txn row) := by
  unfold PoolId.delete
  cases row.id with
  | none => exact .fail fun _ sizes => sizes
  | some id =>
    exact Triple.bind (.ofLooks (Store.lookUp_looks _)) fun file => (fileDelete_sizes file txn row).discard

/-! ## The calls of the pool -/

/-- The pool and the files are in order, however long the files are and whatever free slots the pages have. -/
def Sized (pool : PoolId) (tables : Tables) (capacity : Nat) (sure : PageId → Prop) (store : Store) : Prop :=
  ∃ lengths, pool.Sizes tables capacity lengths sure store

theorem Sized.of_preserves {α : Type} {action : Action α}
    (kept : ∀ lengths, Preserves (pool.Sizes tables capacity lengths sure) action)
    (h : pool.Sized tables capacity sure store) : pool.Sized tables capacity sure (action.after store) := by
  obtain ⟨lengths, sizes⟩ := h
  exact ⟨lengths, (kept lengths store sizes).after⟩

theorem Sizes.room (h : pool.Sizes tables capacity lengths sure store) (room : store.HasRoom tables.files)
    (mem : file ∈ tables.files) : lengths file.id / file.pageSize < UInt32.size := by
  obtain ⟨free, entries, gauged⟩ := h
  obtain ⟨bytes, read_eq, lt⟩ := room file mem
  rw [gauged.gauges.length_eq mem read_eq, Nat.mul_comm] at lt
  exact Nat.div_lt_of_lt_mul lt

theorem Sized.insert (h : pool.Sized tables capacity sure store) (room : store.HasRoom tables.files) (txn : TxnId)
    (table : TableId) (made : row.Made) :
    Meets (fun _ => pool.Sized tables capacity sure) (pool.Sized tables capacity sure)
      (pool.insert txn table row store) := by
  obtain ⟨lengths, sizes⟩ := h
  have ⟨free, knows⟩ := sizes
  have ⟨entries, gauged⟩ := knows
  unfold PoolId.insert
  cases found : store.catalog.file table with
  | error e =>
    rw [Action.bind_error (Store.lookUp_error found)]
    exact ⟨lengths, sizes⟩
  | ok file =>
    rw [Action.bind_ok (Store.lookUp_ok found)]
    rw [gauged.gauges.catalog_eq] at found
    obtain ⟨mem, -⟩ := TableFile.mem_of_among found
    refine (insert_sizes knows mem txn made (sizes.room room mem)).mono (fun _ after ended => ?_) fun after ended => ?_
    · exact ended.elim (fun same => ⟨_, same.1⟩) fun longer => ⟨_, longer.1⟩
    · exact ended.elim (fun same => ⟨_, same⟩) fun longer => ⟨_, longer.1⟩

theorem Sized.perform (h : pool.Sized tables capacity sure store) (room : store.HasRoom tables.files) {call : PoolCall}
    (made : call.Made) : pool.Sized tables capacity sure ((pool.perform call).after store) := by
  cases call with
  | insert txn table row =>
    have met : Meets (fun _ => pool.Sized tables capacity sure) (pool.Sized tables capacity sure)
        (pool.perform (.insert txn table row) store) :=
      (h.insert room txn table made).bind fun _ _ sized => sized
    exact met.after
  | delete txn row => exact h.of_preserves fun _ => .map (delete_sizes txn row)
  | get id => exact h.of_preserves fun _ => .map ((fetch_sizes id).bind fun frame => .map (.ofLooks frame.page_looks))
  | flushPage id => exact h.of_preserves fun _ => .map (flushPage_sizes id).discard
  | flushAll => exact h.of_preserves fun _ => .map flushAll_sizes
  | flushTxn txn => exact h.of_preserves fun _ => .map (flushTxn_sizes txn)
  | evict => exact h.of_preserves fun _ => .map evict_sizes.discard
  | scan table => exact h.of_preserves fun _ => .map (scan_keeps fetch_sizes table)

end PoolId

end RowStore
