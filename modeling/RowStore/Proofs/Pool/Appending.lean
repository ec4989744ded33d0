import RowStore.Proofs.Pool.GaugeRows

/-!
# Storing a row ends

For a row that is stored one page is added at most, and only where every page is full. As long as the pages of the file
can be numbered, the page that is added is not in memory and has a free slot. Work on a page finds the page where it was
fetched.
-/

namespace RowStore

variable {plans : List TablePlan} {config : Config} {disk : Disk} {files : List TableFile} {tables : Tables}
  {capacity : Nat} {lengths : TableId → Nat} {sure unmarked : PageId → Prop} {free : PageId → Option Nat}
  {pool : PoolId} {start store : Store} {file : TableFile} {txn : TxnId} {row : Row}

/-! ## What is claimed -/

namespace PoolId

/-- The page that the pool has: as it is in memory or, where it is not there, as its file has it. -/
def Has (pool : PoolId) (id : PageId) (page : Page) (store : Store) : Prop :=
  (∃ frame, pool.Resident id frame store ∧ store.frames[frame.index]? = some page) ∨
    (∀ frame, ¬pool.Resident id frame store) ∧ ∃ file, store.catalog.file id.table = .ok file ∧
      (file.readPage id.number).outcome store = .ok page

/-- Work on a page that can be fetched finds it in memory where it was fetched, and is done once, on the page as it is
there. -/
def MutatesOnce (pool : PoolId) (store : Store) : Prop :=
  ∀ (α : Type) (id : PageId) (work : Page → Page × Except Failure α) (frame : FrameId) (middle : Store),
    pool.fetch id store = .ok frame middle →
      pool.Resident id frame middle ∧ ∃ page, middle.frames[frame.index]? = some page ∧
        pool.alter id work store = Action.attempt (work page).2
          { middle with frames := middle.frames.setIfInBounds frame.index (work page).1 }

/-- The stores that calls of a pool lead to, whether they succeed or fail. Pages may be given up with their changes, and
any work may change the rows of pages. It marks the pages that it changes, but for those that are `unmarked`. -/
inductive Visits (pool : PoolId) (unmarked : PageId → Prop) (start : Store) : Store → Prop where
  | start : Visits pool unmarked start start
  | call {before : Store} {call : PoolCall} (visited : Visits pool unmarked start before) (made : call.Made) :
      Visits pool unmarked start ((pool.perform call).after before)
  | alter {α : Type} {before : Store} (visited : Visits pool unmarked start before) (id : PageId)
      {work : Page → Page × Except Failure α} (altered : ∀ page : Page, page.Altered (work page).1 (¬unmarked id)) :
      Visits pool unmarked start ((pool.alter id work).after before)
  | discard {before : Store} (visited : Visits pool unmarked start before) (id : PageId) :
      Visits pool unmarked start ((pool.discardPage id).after before)

end PoolId

def TableFile.HasPages (file : TableFile) (count : Nat) (store : Store) : Prop :=
  ∃ bytes, store.disk.read file.place = .ok bytes ∧ bytes.length / file.pageSize = count

/-- Storing a row in a file ends, after one page was added at most. It is not known what room the `unmarked` pages
had. -/
structure TableFile.InsertEnds (file : TableFile) (pool : PoolId) (unmarked : PageId → Prop) (txn : TxnId) (row : Row)
    (store : Store) : Prop where
  /-- Whatever was to be done if the page that is added took no row, it is not done. -/
  once : ∀ otherwise : Action Row, file.insert pool txn row store = file.insertElse pool txn row otherwise store
  /-- Where no page took the row, the page that is added is the next one, is not in memory and has a free slot. -/
  fresh : row.schema = file.schema → ∀ count scanned number after, file.pageCount store = .ok count store →
    file.insertAmong pool txn row count.toNat 0 store = .ok none scanned →
      file.appendPage scanned = .ok number after →
        number = count ∧ (∀ frame, ¬pool.Resident (file.pageId number) frame after) ∧
          ∃ page, pool.Has (file.pageId number) page after ∧ 0 < page.freeCount
  /-- The file is one page longer only where every page was full, and a row that is stored without that goes to a page
  with a free slot. -/
  grows : ∃ count, file.HasPages count store ∧
    (file.HasPages count ((file.insert pool txn row).after store) ∧
        (∀ stored after, file.insert pool txn row store = .ok stored after →
          ∃ n < count, unmarked (file.pageId (UInt32.ofNat n)) ∨
            ∃ page, pool.Has (file.pageId (UInt32.ofNat n)) page store ∧ 0 < page.freeCount) ∨
      file.HasPages (count + 1) ((file.insert pool txn row).after store) ∧
        ∀ n < count, unmarked (file.pageId (UInt32.ofNat n)) ∨
          ∃ page, pool.Has (file.pageId (UInt32.ofNat n)) page store ∧ page.freeCount = 0)
  /-- Work on a page is done once before, between and after the attempts to store the row. -/
  mutates : pool.MutatesOnce store ∧ (row.schema = file.schema → ∀ left : Nat,
    pool.MutatesOnce ((file.insertAmong pool txn row left 0).after store) ∧
      pool.MutatesOnce (file.appendPage.after ((file.insertAmong pool txn row left 0).after store)))

/-! ## Pages that the pool has -/

namespace PoolId

theorem Gauged.has {entries : List (PageId × FrameId)} (h : pool.Gauged tables capacity lengths sure free entries store)
    (mem : file ∈ tables.files) {number : UInt32} {n : Nat} (still : sure (file.pageId number))
    (free_eq : free (file.pageId number) = some n) :
    ∃ page, pool.Has (file.pageId number) page store ∧ page.freeCount = n := by
  by_cases kept : file.pageId number ∈ entries.map Prod.fst
  · obtain ⟨⟨id, frame⟩, entry_mem, rfl⟩ := List.mem_map.mp kept
    obtain ⟨-, -, -, page, -, page_eq, free_eq', -⟩ := h.gauges.entries _ entry_mem
    refine ⟨page, .inl ⟨frame, (h.keeps.resident_iff _ _).mpr entry_mem, page_eq⟩, ?_⟩
    exact Option.some.inj ((free_eq' still).symm.trans free_eq)
  · have on_disk := h.gauges.others file mem number kept still
    obtain ⟨meters, ends⟩ := file.readPage_ends number store
    cases read : file.pageOn store.disk number with
    | error failure =>
      rw [free_eq, read] at on_disk
      cases on_disk
    | ok page =>
      rw [free_eq, read] at on_disk
      rw [read] at ends
      refine ⟨page, .inr ⟨fun frame resident => kept ?_, file, ?_, ends.eq.1⟩, (Option.some.inj on_disk).symm⟩
      · exact List.mem_map_of_mem ((h.keeps.resident_iff _ _).mp resident)
      · exact (h.gauges.catalog_eq file.id).trans (tables.among_eq mem)

theorem Sizes.mutatesOnce (h : pool.Sizes tables capacity lengths sure store) : pool.MutatesOnce store := by
  obtain ⟨free, knows⟩ := h
  intro α id work frame middle run
  have fetched := fetch_knows id store knows
  rw [run] at fetched
  obtain ⟨entries, gauged⟩ := fetched
  obtain ⟨file, -, -, page, -, page_eq, -⟩ := gauged.gauges.entries _ List.mem_cons_self
  exact ⟨(gauged.keeps.resident_iff _ _).mpr List.mem_cons_self, page, page_eq, gauged.alter_eq run page_eq work⟩

theorem Sizes.hasPages (h : pool.Sizes tables capacity lengths sure store) (mem : file ∈ tables.files) :
    file.HasPages (lengths file.id / file.pageSize) store := by
  obtain ⟨free, entries, gauged⟩ := h
  obtain ⟨bytes, read_eq, length_eq⟩ := gauged.gauges.lengths file mem
  exact ⟨bytes, read_eq, by rw [length_eq]⟩

theorem Sizes.hasPages_grown (h : pool.Sizes tables capacity (grown file lengths) sure store)
    (mem : file ∈ tables.files) : file.HasPages (lengths file.id / file.pageSize + 1) store := by
  have counted := h.hasPages mem
  rw [grown, Function.update_self, Nat.mul_div_cancel _ (tables.opened file mem).sizes.1] at counted
  exact counted

/-! ## One page at most -/

section

variable (knows : pool.Knows tables capacity lengths sure free store) (mem : file ∈ tables.files)

include knows mem

theorem Knows.has {number : UInt32} {n : Nat} (still : sure (file.pageId number))
    (free_eq : free (file.pageId number) = some n) :
    ∃ page, pool.Has (file.pageId number) page store ∧ page.freeCount = n := by
  obtain ⟨entries, gauged⟩ := knows
  exact gauged.has mem still free_eq

theorem Knows.all_full {count : Nat} (full : AllFull sure free (file.pageIds 0 count)) :
    ∀ n < count, ¬sure (file.pageId (UInt32.ofNat n)) ∨
      ∃ page, pool.Has (file.pageId (UInt32.ofNat n)) page store ∧ page.freeCount = 0 := by
  intro n lt
  have id_mem : file.pageId (UInt32.ofNat n) ∈ file.pageIds 0 count :=
    List.mem_map_of_mem (List.mem_range'_1.mpr ⟨Nat.zero_le n, by omega⟩)
  by_cases still : sure (file.pageId (UInt32.ofNat n))
  · exact .inr (knows.has mem still (full _ id_mem still))
  · exact .inl still

theorem Knows.some_free {count : Nat} (some_free : SomeFree sure free (file.pageIds 0 count)) :
    ∃ n < count, ¬sure (file.pageId (UInt32.ofNat n)) ∨
      ∃ page, pool.Has (file.pageId (UInt32.ofNat n)) page store ∧ 0 < page.freeCount := by
  obtain ⟨id, id_mem, free_eq⟩ := some_free
  obtain ⟨n, n_mem, rfl⟩ := List.mem_map.mp id_mem
  have lt := (List.mem_range'_1.mp n_mem).2
  refine ⟨n, by omega, ?_⟩
  by_cases still : sure (file.pageId (UInt32.ofNat n))
  · obtain ⟨m, free_eq⟩ := free_eq still
    obtain ⟨page, has, count_eq⟩ := knows.has mem still free_eq
    exact .inr ⟨page, has, by omega⟩
  · exact .inl still

variable (room : lengths file.id / file.pageSize < UInt32.size) (txn : TxnId) (made : row.Made)

include room made

theorem insert_fresh (schema_eq : row.schema = file.schema) {count number : UInt32} {scanned after : Store}
    (counted : file.pageCount store = .ok count store)
    (scan : file.insertAmong pool txn row count.toNat 0 store = .ok none scanned)
    (append : file.appendPage scanned = .ok number after) :
    number = count ∧ (∀ frame, ¬pool.Resident (file.pageId number) frame after) ∧
      ∃ page, pool.Has (file.pageId number) page after ∧ 0 < page.freeCount := by
  obtain ⟨count', toNat_eq, counted'⟩ := pageCount_knows knows mem room
  cases counted.symm.trans counted'
  have tried : Meets _ _ (file.insertAmong pool txn row count.toNat 0 store) :=
    insertAmong_tried mem txn made schema_eq count.toNat 0 store knows
  rw [scan] at tried
  have added := appendPage_knows mem room scanned tried.1
  rw [append] at added
  obtain ⟨page, has, count_eq⟩ := added.knows.has mem (.inr rfl) (Function.update_self ..)
  refine ⟨UInt32.toNat_inj.mp (added.toNat_eq.trans toNat_eq.symm), added.absent, page, has, ?_⟩
  rw [count_eq]
  exact (tables.opened file mem).sizes.2.2

theorem insert_grows :
    ∃ count, file.HasPages count store ∧
      (file.HasPages count ((file.insert pool txn row).after store) ∧
          (∀ stored after, file.insert pool txn row store = .ok stored after →
            ∃ n < count, ¬sure (file.pageId (UInt32.ofNat n)) ∨
              ∃ page, pool.Has (file.pageId (UInt32.ofNat n)) page store ∧ 0 < page.freeCount) ∨
        file.HasPages (count + 1) ((file.insert pool txn row).after store) ∧
          ∀ n < count, ¬sure (file.pageId (UInt32.ofNat n)) ∨
            ∃ page, pool.Has (file.pageId (UInt32.ofNat n)) page store ∧ page.freeCount = 0) := by
  refine ⟨lengths file.id / file.pageSize, Sizes.hasPages ⟨free, knows⟩ mem, ?_⟩
  have inserted := insert_sizes knows mem txn made room
  unfold Action.after
  cases run : file.insert pool txn row store with
  | ok stored after =>
    rw [run] at inserted
    rcases inserted with ⟨sizes, some_free⟩ | ⟨sizes, full⟩
    · exact .inl ⟨sizes.hasPages mem, fun _ _ _ => knows.some_free mem some_free⟩
    · exact .inr ⟨sizes.hasPages_grown mem, knows.all_full mem full⟩
  | error failure after =>
    rw [run] at inserted
    rcases inserted with sizes | ⟨sizes, full⟩
    · exact .inl ⟨sizes.hasPages mem, fun _ _ absurd => by cases absurd⟩
    · exact .inr ⟨sizes.hasPages_grown mem, knows.all_full mem full⟩

theorem insert_mutates (schema_eq : row.schema = file.schema) (left : Nat) :
    pool.MutatesOnce ((file.insertAmong pool txn row left 0).after store) ∧
      pool.MutatesOnce (file.appendPage.after ((file.insertAmong pool txn row left 0).after store)) := by
  have scanned : pool.Sizes tables capacity lengths sure ((file.insertAmong pool txn row left 0).after store) := by
    refine ((insertAmong_tried mem txn made schema_eq left 0 store knows).mono (fun stored after tried => ?_)
      fun _ sizes => sizes).after
    cases stored with
    | none => exact ⟨free, tried.1⟩
    | some stored => exact tried.1
  refine ⟨scanned.mutatesOnce, ?_⟩
  obtain ⟨free', knows'⟩ := scanned
  refine ((appendPage_knows mem room _ knows').mono (fun number after added => ?_) fun _ sizes => ?_).after
  · exact Sizes.mutatesOnce ⟨_, added.knows⟩
  · exact sizes.mutatesOnce

theorem Knows.insertEnds : file.InsertEnds pool (fun id => ¬sure id) txn row store where
  once := insert_eq_insertElse knows mem txn made room
  fresh schema_eq _ _ _ _ counted scan append := insert_fresh knows mem room txn made schema_eq counted scan append
  grows := insert_grows knows mem room txn made
  mutates := ⟨Sizes.mutatesOnce ⟨free, knows⟩, insert_mutates knows mem room txn made⟩

end

/-! ## From the start on -/

theorem Visits.sized (visited : pool.Visits unmarked start store)
    (started : pool.Sized tables capacity (fun id => ¬unmarked id) start) (room : store.HasRoom tables.files) :
    pool.Sized tables capacity (fun id => ¬unmarked id) store := by
  induction visited with
  | start => exact started
  | call _ made ih =>
    have room' := (pool.perform_grows _).hasRoom room
    exact (ih room').perform room' made
  | @alter α before _ id work altered ih =>
    have within : (pool.alter id work).Within fun _ => True :=
      pool.alter_within id (fun _ _ => trivial) fun _ _ _ => trivial
    exact (ih (within.grows.hasRoom room)).of_preserves fun _ => alter_sizes id altered
  | @discard before _ id ih =>
    have within : (pool.discardPage id).Within fun _ => True := pool.discardPage_within id
    exact (ih (within.grows.hasRoom room)).of_preserves fun _ => discardPage_sizes id

end PoolId

def Tables.lengthOn (tables : Tables) (disk : Disk) (table : TableId) : Nat :=
  match TableFile.among tables.files table with
  | .ok file => (disk.read file.place).toOption.elim 0 Bytes.length
  | .error _ => 0

def Tables.freeOn (tables : Tables) (disk : Disk) (id : PageId) : Option Nat :=
  match TableFile.among tables.files id.table with
  | .ok file => (file.pageOn disk id.number).toOption.map Page.freeCount
  | .error _ => none

theorem Gauges.ofDisk (catalog_eq : ∀ table, store.catalog.file table = TableFile.among tables.files table)
    (there : ∀ file ∈ tables.files, store.disk.There file.place) :
    Gauges tables (tables.lengthOn store.disk) sure (tables.freeOn store.disk) [] store := by
  refine ⟨catalog_eq, fun file mem => ?lengths, .nil, .nil, fun _ mem => absurd mem List.not_mem_nil, ?others⟩
  case lengths =>
    obtain ⟨bytes, read_eq⟩ := there file mem
    refine ⟨bytes, read_eq, ?_⟩
    rw [Tables.lengthOn, tables.among_eq mem]
    dsimp only
    rw [read_eq]
    rfl
  case others =>
    intro file mem number _ _
    have among_eq : TableFile.among tables.files (file.pageId number).table = .ok file := tables.among_eq mem
    rw [Tables.freeOn, among_eq]
    rfl

namespace PoolId

/-- Whatever the files had in them when they were opened, and whatever calls of the pool and work on its pages came
before, storing a row in one of them ends, after one page was added at most. The files must be able to number their
pages: a page past the last number would take the place of the first. -/
theorem insertEnds_of_visits (setUp : Store.setUp plans config (.ofDisk disk) = .ok (files, pool) start)
    (ids : (files.map TableFile.id).Nodup) (names : (plans.map TablePlan.name).Nodup)
    (visited : pool.Visits unmarked start store) (room : store.HasRoom files) (mem : file ∈ files) (txn : TxnId)
    (made : row.Made) : file.InsertEnds pool unmarked txn row store := by
  obtain ⟨tables, rfl, -, catalog_eq, -, there, pos, keeps⟩ := Store.tables_of_setUp setUp ids names
  have started : pool.Sized tables config.poolPages (fun id => ¬unmarked id) start :=
    ⟨_, _, [], pos, keeps, .ofDisk catalog_eq there⟩
  obtain ⟨lengths, sizes⟩ := visited.sized started room
  have ⟨free, knows⟩ := sizes
  simpa only [not_not] using knows.insertEnds mem (sizes.room room mem) txn made

/-- One row was stored and its page was given up before it was written. -/
theorem insertEnds_of_visits_discarding :
    ∃ start store, Store.setUp [smallPlan] ⟨9, 1⟩ (.ofDisk default) = .ok ([smallFile], ⟨0⟩) start ∧
      store = (PoolId.discardPage ⟨0⟩ (smallFile.pageId 0)).after
        ((PoolId.perform ⟨0⟩ (.insert ⟨1⟩ smallFile.id (smallRow 1 none))).after start) ∧
      smallFile.InsertEnds ⟨0⟩ (fun _ => False) ⟨1⟩ (smallRow 2 none) store := by
  obtain ⟨start, setUp, read_eq⟩ := setUp_small
  have start_eq : start = (Store.setUp [smallPlan] ⟨9, 1⟩).after (.ofDisk default) := by rw [Action.after, setUp]
  have made : (PoolCall.insert ⟨1⟩ smallFile.id (smallRow 1 none)).Made := made_smallRow 1 none
  have room : ((PoolId.discardPage ⟨0⟩ (smallFile.pageId 0)).after
      ((PoolId.perform ⟨0⟩ (.insert ⟨1⟩ smallFile.id (smallRow 1 none))).after start)).HasRoom [smallFile] := by
    rw [start_eq]
    decide +kernel
  exact ⟨start, _, setUp, rfl, insertEnds_of_visits setUp (List.nodup_singleton _) (List.nodup_singleton _)
    (.discard (.call .start made) (smallFile.pageId 0)) room (List.mem_singleton_self _) ⟨1⟩ (made_smallRow 2 none)⟩

end PoolId

end RowStore
