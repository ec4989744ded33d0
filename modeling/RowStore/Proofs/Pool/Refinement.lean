import RowStore.Proofs.Pool.Scanning
import RowStore.Proofs.Pool.SetUp

/-!
# A pool is as good as plain tables

Every call of a pool has the outcome that it has on plain tables, whatever is in memory and whatever has to leave it. So
have any number of calls from the start.
-/

namespace RowStore

/-- Rows that a call stores are made of checked values. -/
def PoolCall.Made : PoolCall → Prop
  | .insert _ _ row => row.Made
  | _ => True

/-- The file in which a call stores a row can take the pages that its table has after that. -/
def PoolCall.Fits (files : List TableFile) (contents : Contents) : PoolCall → Prop
  | .insert _ table row => ∀ file ∈ files, file.id = table →
      ((contents.insert files table row).1 table).length * file.pageSize ≤ Disk.maxFileBytes
  | _ => True

namespace Contents

/-- Every page has a number of 32 bits with one to spare, and every file can be as long as it has to be. -/
def Fit (files : List TableFile) (contents : Contents) : Prop :=
  ∀ file ∈ files, (contents file.id).length < UInt32.size ∧
    (contents file.id).length * file.pageSize ≤ Disk.maxFileBytes

theorem length_setTable_le {contents : Contents} {table : TableId} {pages : PlainTable}
    (le : (contents table).length ≤ pages.length) (other : TableId) :
    (contents other).length ≤ (contents.setTable table pages other).length := by
  unfold setTable
  split
  · next same => rw [same]; exact le
  · exact Nat.le_refl _

theorem length_perform_le (files : List TableFile) (contents : Contents) (call : PoolCall) (table : TableId) :
    (contents table).length ≤ ((contents.perform files call).1 table).length := by
  cases call with
  | insert txn into row =>
    simp only [perform, Prod.map, id, insert]
    split
    · exact Nat.le_refl _
    · split
      · exact Nat.le_refl _
      · refine length_setTable_le ?_ table
        rw [PlainTable.put, List.length_modify, PlainTable.makeRoom]
        split <;> simp
  | delete txn row =>
    simp only [perform, Prod.map, id, delete]
    repeat' split
    all_goals first
      | exact Nat.le_refl _
      | exact length_setTable_le (Nat.le_of_eq (by rw [PlainTable.put, List.length_modify])) table
  | get _ | flushPage _ | flushAll | flushTxn _ | evict | scan _ => exact Nat.le_refl _

theorem Fit.of_perform {files : List TableFile} {contents : Contents} {call : PoolCall}
    (h : (contents.perform files call).1.Fit files) : contents.Fit files := by
  intro file mem
  have le := length_perform_le files contents call file.id
  exact ⟨Nat.lt_of_le_of_lt le (h file mem).1, Nat.le_trans (Nat.mul_le_mul_right _ le) (h file mem).2⟩

theorem Fit.fits {files : List TableFile} {contents : Contents} {call : PoolCall}
    (h : (contents.perform files call).1.Fit files) : call.Fits files contents := by
  cases call with
  | insert txn table row => exact fun file mem same => same ▸ (h file mem).2
  | _ => trivial

theorem Fit.of_run {files : List TableFile} {contents : Contents} {calls : List PoolCall}
    (h : (run files contents calls).2.Fit files) : contents.Fit files := by
  induction calls generalizing contents with
  | nil => exact h
  | cons call calls ih => exact (ih h).of_perform

end Contents

namespace PoolId

namespace Shows

variable {pool : PoolId} {tables : Tables} {capacity : Nat} {current : Contents} {store : Store}

theorem perform_ok (h : pool.Shows tables capacity current store) {call : PoolCall} (made : call.Made)
    (room : ∀ file ∈ tables.files, (current file.id).length < UInt32.size) (fits : call.Fits tables.files current) :
    ∃ store', (pool.perform call).Ends store (current.perform tables.files call).2 store' ∧
      pool.Shows tables capacity (current.perform tables.files call).1 store' := by
  cases call with
  | insert txn table row =>
    obtain ⟨store', ends, shows'⟩ := h.insert_ok txn table made room fits
    exact ⟨store', ends.map _, shows'⟩
  | delete txn row =>
    obtain ⟨store', ends, shows'⟩ := h.delete_ok txn row room
    exact ⟨store', ends.map _, shows'⟩
  | get id =>
    obtain ⟨store', ends, shows'⟩ := h.get_ok id
    exact ⟨store', ends.map _, shows'⟩
  | scan table =>
    obtain ⟨store', ends, shows'⟩ := h.scan_ok table room
    exact ⟨store', ends.map _, shows'⟩
  | flushPage id =>
    obtain ⟨saved, entries, represents⟩ := h
    obtain ⟨written, saved', entries', store', flush_eq, represents'⟩ := represents.flushPage_ok id
    exact ⟨store', Action.bind_ok (Action.discard_ok flush_eq), saved', entries', represents'⟩
  | flushAll =>
    obtain ⟨saved, entries, represents⟩ := h
    obtain ⟨saved', store', flush_eq, represents', -⟩ := represents.flushAll_ok
    exact ⟨store', Action.bind_ok flush_eq, saved', entries, represents'⟩
  | flushTxn txn =>
    obtain ⟨saved, entries, represents⟩ := h
    obtain ⟨saved', store', flush_eq, represents', -⟩ := represents.flushTxn_ok txn
    exact ⟨store', Action.bind_ok flush_eq, saved', entries, represents'⟩
  | evict =>
    obtain ⟨saved, entries, represents⟩ := h
    obtain ⟨evicted, saved', entries', store', evict_eq, represents'⟩ := represents.evict_ok
    exact ⟨store', Action.bind_ok (Action.discard_ok evict_eq), saved', entries', represents'⟩

theorem run_ok (h : pool.Shows tables capacity current store) {calls : List PoolCall}
    (made : ∀ call ∈ calls, call.Made) (fit : (Contents.run tables.files current calls).2.Fit tables.files) :
    ∃ store', pool.run calls store = ((Contents.run tables.files current calls).1, store') ∧
      pool.Shows tables capacity (Contents.run tables.files current calls).2 store' := by
  induction calls generalizing current store with
  | nil => exact ⟨store, rfl, h⟩
  | cons call calls ih =>
    have fit₁ : (current.perform tables.files call).1.Fit tables.files := Contents.Fit.of_run fit
    obtain ⟨store₁, ends, shows₁⟩ := h.perform_ok (made call List.mem_cons_self)
      (fun file mem => (fit₁.of_perform file mem).1) fit₁.fits
    obtain ⟨store', run_eq, shows'⟩ := ih shows₁ (fun other mem => made other (List.mem_cons_of_mem _ mem)) fit
    refine ⟨store', ?_, shows'⟩
    unfold PoolId.run Contents.run
    unfold Action.Ends at ends
    simp only
    split at ends
    all_goals
      next outcome_eq =>
      rw [ends, outcome_eq]
      simp only [run_eq]
      rfl

end Shows

variable {plans : List TablePlan} {config : Config} {disk : Disk} {files : List TableFile} {pool : PoolId}
  {store : Store}

theorem shows_of_setUp (setUp : Store.setUp plans config (.ofDisk disk) = .ok (files, pool) store)
    (ids : (files.map TableFile.id).Nodup) (names : (plans.map TablePlan.name).Nodup)
    (blank : ∀ file ∈ files, ∃ bytes, store.disk.read file.place = .ok bytes ∧ bytes.length = 0) :
    ∃ tables : Tables, tables.files = files ∧ tables.origin = disk ∧
      pool.Shows tables config.poolPages (fun _ => []) store := by
  obtain ⟨tables, files_eq, origin_eq, represents⟩ := Store.of_setUp setUp ids names (fun _ => [])
    (fun file mem => by
      obtain ⟨bytes, read_eq, length_eq⟩ := blank file mem
      refine ⟨bytes, read_eq, List.length_eq_zero_iff.mp ?_⟩
      rw [Bytes.length_toList, length_eq])
    (fun _ _ => Nat.zero_le _) (fun _ _ => by simp) (fun _ _ _ _ here => by cases here)
  exact ⟨tables, files_eq, origin_eq, _, [], represents⟩

/-- A pool of any capacity, over opened files without pages that can be told apart and keep their numbers and names,
gives for every call the outcome that the call has on plain tables. The files must be able to take the pages of those
tables: a page has a number of 32 bits, and a file has a greatest length. -/
theorem run_eq_plain (setUp : Store.setUp plans config (.ofDisk disk) = .ok (files, pool) store)
    (ids : (files.map TableFile.id).Nodup) (names : (plans.map TablePlan.name).Nodup)
    (blank : ∀ file ∈ files, ∃ bytes, store.disk.read file.place = .ok bytes ∧ bytes.length = 0)
    {calls : List PoolCall} (made : ∀ call ∈ calls, call.Made)
    (fit : (Contents.run files (fun _ => []) calls).2.Fit files) :
    (pool.run calls store).1 = (Contents.run files (fun _ => []) calls).1 := by
  obtain ⟨tables, rfl, -, shows⟩ := shows_of_setUp setUp ids names blank
  obtain ⟨store', run_eq, -⟩ := shows.run_ok made fit
  rw [run_eq]

/-- Three rows are stored, their page leaves the pool and comes back, and the first of them is removed. -/
def smallCalls : List PoolCall :=
  [.insert ⟨1⟩ smallFile.id (smallRow 1 none), .insert ⟨1⟩ smallFile.id (smallRow 2 none),
    .insert ⟨2⟩ smallFile.id (smallRow 3 none), .evict, .delete ⟨1⟩ (smallRow 1 (smallFile.rowId 0 0)),
    .scan smallFile.id]

theorem run_eq_plain_of_evicting :
    ∃ store, Store.setUp [smallPlan] ⟨9, 1⟩ (.ofDisk default) = .ok ([smallFile], ⟨0⟩) store ∧
      (PoolId.run ⟨0⟩ smallCalls store).1 =
        [.ok (.stored (smallRow 1 (smallFile.rowId 0 0))), .ok (.stored (smallRow 2 (smallFile.rowId 0 1))),
          .ok (.stored (smallRow 3 (smallFile.rowId 1 0))), .ok .done, .ok .done,
          .ok (.rows [smallRow 2 (smallFile.rowId 0 1), smallRow 3 (smallFile.rowId 1 0)])] := by
  obtain ⟨store, setUp, blank⟩ := setUp_small
  refine ⟨store, setUp, (run_eq_plain setUp ?ids ?names ?blank ?made ?fit).trans ?_⟩
  case ids => exact List.nodup_singleton _
  case names => exact List.nodup_singleton _
  case blank =>
    intro file mem
    cases List.mem_singleton.mp mem
    exact ⟨_, blank, rfl⟩
  case made => simp [smallCalls, PoolCall.Made, made_smallRow]
  case fit =>
    intro file mem
    cases List.mem_singleton.mp mem
    exact ⟨by decide +kernel, by decide +kernel⟩
  decide +kernel

end PoolId

end RowStore
