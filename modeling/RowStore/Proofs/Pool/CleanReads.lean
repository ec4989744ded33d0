import RowStore.Proofs.Pool.Filled
import RowStore.Proofs.Pool.TxnFlush

/-!
# Reading with nothing to write

A pool without changed pages moves pages in and out of memory and writes none of them, so reading leaves every byte of
every file and every count of pages written.
-/

namespace RowStore

/-- The disk is as it was, and no page was written. -/
structure Store.Unwritten (before after : Store) : Prop where
  disk_eq : after.disk = before.disk
  writes_eq : after.meters.map Meter.writes = before.meters.map Meter.writes

variable {before store store' : Store}

theorem Store.Unwritten.refl (store : Store) : store.Unwritten store := ⟨rfl, rfl⟩

theorem Store.Unwritten.congr (h : before.Unwritten store) (disk_eq : store'.disk = store.disk)
    (meters_eq : store'.meters = store.meters) : before.Unwritten store' :=
  ⟨disk_eq.trans h.disk_eq, by rw [meters_eq, h.writes_eq]⟩

theorem TableFile.readPage_unwritten (file : TableFile) (number : UInt32) :
    Preserves before.Unwritten (file.readPage number) := by
  have counted : Preserves before.Unwritten (file.count Meter.countRead) := by
    intro store unwritten
    refine ⟨unwritten.disk_eq, ?_⟩
    rw [← unwritten.writes_eq]
    refine Array.ext_getElem? fun i => ?_
    simp only [Array.getElem?_map, Array.getElem?_modify]
    split
    · rw [Option.map_map]
      rfl
    · rfl
  apply (Triple.ofLooks file.bytes_looks).bind
  intro bytes
  apply (Triple.ofLooks (Action.attempt_looks _)).bind
  intro part
  exact counted.bind fun _ => .ofLooks (Action.attempt_looks _)

namespace PoolId

variable {pool : PoolId} {id : PageId} {frame : FrameId} {kept : Pool} {last : LastChanges}

/-- No page of the pool has a mark of a change. -/
def Clean (pool : PoolId) (store : Store) : Prop :=
  ∀ id frame page, pool.Resident id frame store → store.frames[frame.index]? = some page → page.dirtier = none

theorem Marks.of_clean (h : pool.Marks last store) (clean : pool.Clean store) : pool.Marks .none store where
  tidy := h.tidy
  catalog := h.catalog
  pages := by
    intro id frame page resident frame_eq
    refine ⟨(h.pages id frame page resident frame_eq).1, fun txn marked => ?_⟩
    rw [clean id frame page resident frame_eq] at marked
    cases marked

/-! ## Fetching a page -/

theorem unwritten_of_onCache {α : Type} {change : Cache PageId FrameId → Except Abort (Cache PageId FrameId × α)}
    {a : α}
    (unwritten : before.Unwritten store) (h : pool.onCache change store = .ok a store') : before.Unwritten store' := by
  obtain ⟨pools, rfl⟩ := store_of_onCache h
  exact unwritten.congr rfl rfl

theorem writeBackEvicted_unmarked (marks : pool.Marks .none store) {evicted : Option (PageId × FrameId)}
    (gives : pool.GivesUp evicted store store') : writeBackEvicted evicted store' = .ok () store' := by
  cases evicted with
  | none => rfl
  | some entry =>
    obtain ⟨resident, -⟩ := gives.gone entry.1 entry.2 rfl
    obtain ⟨page, frame_eq⟩ := marks.tidy.page_of_resident resident
    have unmarked : page.dirtier = none := by
      cases marked : page.dirtier with
      | none => rfl
      | some txn => cases (marks.pages _ _ page resident frame_eq).2 txn marked
    exact Action.discard_ok (writeBack_clean ⟨page, gives.frames _ page frame_eq, unmarked⟩ entry.1)

theorem load_unwritten (marks : pool.Marks .none store) (unwritten : before.Unwritten store)
    (kept_eq : store.pools[pool.index]? = some kept) (absent : ∀ frame, ¬pool.Resident id frame store) :
    Meets (fun _ => before.Unwritten) before.Unwritten (pool.load id store) := by
  unfold load
  cases found : store.catalog.file id.table with
  | error e =>
    rw [Action.bind_error (Store.lookUp_error found)]
    exact unwritten
  | ok file =>
    rw [Action.bind_ok (Store.lookUp_ok found)]
    have read := file.readPage_unwritten id.number store unwritten
    obtain ⟨meters, ⟨failure, failed⟩ | ⟨page, read_eq⟩⟩ := file.readPage_cases id.number store
    · rw [failed] at read
      rw [Action.bind_error failed]
      exact read
    · rw [read_eq] at read
      obtain ⟨evicted, middle, run, -, -, gives, -⟩ := getOrInsert_cases marks.tidy kept_eq absent page meters
      have written := writeBackEvicted_unmarked marks gives
      rw [Action.bind_ok read_eq, Action.bind_ok (Store.addFrame_eq ..), Action.bind_ok run]
      dsimp only
      rw [Action.bind_ok written]
      have kept : before.Unwritten { store with meters, frames := store.frames.push page } := read.congr rfl rfl
      exact unwritten_of_onCache kept run

theorem fetch_unwritten (id : PageId) :
    Preserves (fun store => pool.Marks .none store ∧ before.Unwritten store) (pool.fetch id) := by
  rintro store ⟨marks, unwritten⟩
  have marks' := fetch_marks id store marks
  have unwritten' : Meets (fun _ => before.Unwritten) before.Unwritten (pool.fetch id store) := by
    have looked := get_marks id store marks
    unfold fetch
    rcases get_cases marks.tidy pool id with
      ⟨run, -⟩ | ⟨frame, after, run, -⟩ | ⟨middle, kept, run, -, -, kept_eq, -, absent⟩
    · rw [Action.bind_error run]
      exact unwritten
    · rw [Action.bind_ok run]
      exact unwritten_of_onCache unwritten run
    · rw [run] at looked
      rw [Action.bind_ok run]
      exact load_unwritten looked (unwritten_of_onCache unwritten run) kept_eq absent
  cases run : pool.fetch id store with
  | ok frame after =>
    rw [run] at marks' unwritten'
    exact ⟨marks', unwritten'⟩
  | error failure after =>
    rw [run] at marks' unwritten'
    exact ⟨marks', unwritten'⟩

/-! ## Reading a table -/

variable {tables : Tables} {capacity : Nat} {current contents : Contents} {file : TableFile} {files : List TableFile}

/-- The tables are these. If no page had been changed before, none is now, and nothing was written since. -/
def Rests (pool : PoolId) (tables : Tables) (capacity : Nat) (current : Contents) (before store : Store) : Prop :=
  pool.Shows tables capacity current store ∧ (pool.Clean before → pool.Marks .none store ∧ before.Unwritten store)

theorem Rests.serves (mem : file ∈ tables.files) (room : (current file.id).length < UInt32.size) :
    file.Serves pool (current file.id) (pool.Rests tables capacity current before) where
  room := room
  look := by
    rintro n store lt ⟨shows, quiet⟩
    obtain ⟨store', run, shows'⟩ := shows.pageRows?_ok mem room lt
    refine ⟨store', run, shows', fun clean => ?_⟩
    have quiet' := TableCursor.pageRows?_keeps fetch_unwritten file (UInt32.ofNat n) store (quiet clean)
    rw [run] at quiet'
    exact quiet'

theorem Filled.marks (h : pool.Filled files contents store) : ∃ last, pool.Marks last store := by
  cases h with
  | @intro plans config disk start initial calls setUp ids names stored sound made fit =>
    have fit₀ := Contents.Fit.of_run fit
    obtain ⟨tables, -, -, represents⟩ := Store.of_setUp setUp ids names initial stored
      (fun file mem => Nat.le_of_lt (fit₀ file mem).1) (fun file mem => (fit₀ file mem).2) sound
    exact ⟨_, run_marks calls (represents.marks .none (Store.tidy_of_setUp setUp))⟩

theorem Filled.rests (h : pool.Filled files contents store) :
    ∃ tables capacity, tables.files = files ∧ pool.Rests tables capacity contents store store := by
  obtain ⟨tables, capacity, files_eq, shows⟩ := h.shows
  obtain ⟨last, marks⟩ := h.marks
  exact ⟨tables, capacity, files_eq, shows, fun clean => ⟨marks.of_clean clean, .refl store⟩⟩

end PoolId

end RowStore
