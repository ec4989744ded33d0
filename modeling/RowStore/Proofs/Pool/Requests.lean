import RowStore.Proofs.Pool.Careful
import RowStore.Proofs.Pool.SetUp
import RowStore.Proofs.Pool.Triples

/-!
# What can be asked of a store

The pools of a store are in order whatever was asked of it, and whether that succeeded or failed.
-/

namespace RowStore

/-! ## Requests -/

/-- What is asked of a pool: a page, some work on a page, a row to be stored or removed, or room. -/
inductive PoolRequest where
  | get (id : PageId)
  | alter (id : PageId) (work : Page → Page × Except Failure Unit)
  | insert (txn : TxnId) (table : TableId) (row : Row)
  | delete (txn : TxnId) (row : Row)
  | evict

namespace PoolRequest

def run (pool : PoolId) : PoolRequest → Action Unit
  | get id => discard (pool.fetch id)
  | alter id work => pool.alter id work
  | insert txn table row => discard (pool.insert txn table row)
  | delete txn row => pool.delete txn row
  | evict => discard pool.evict

/-- What a request that fails makes of a resident page. -/
def leaves : PoolRequest → PageId → Page → Page
  | alter target work, id, page => if id = target then (work page).1 else page
  | _, _, page => page

end PoolRequest

/-- What is asked of a store. Tables can be registered, replaced and forgotten at any time, files can be written past
the pools, and whoever has the handle of a page can change it. -/
inductive StoreRequest where
  | openFile (path : String) (schema : Schema) (pageSize : Nat)
  | setFileBytes (path : String) (bytes : Bytes)
  | writePage (file : TableFile) (page : Page)
  | register (file : TableFile) (name primaryKey : String)
  | clearCatalog
  | addPool (config : Config)
  | setPage (frame : FrameId) (page : Page)
  | ofPool (pool : PoolId) (request : PoolRequest)
  | fileInsert (file : TableFile) (pool : PoolId) (txn : TxnId) (row : Row)
  | fileDelete (file : TableFile) (pool : PoolId) (txn : TxnId) (row : Row)
  | flushPage (pool : PoolId) (id : PageId)
  | flushAll (pool : PoolId)
  | flushTxn (pool : PoolId) (txn : TxnId)
  | discardPage (pool : PoolId) (id : PageId)

def StoreRequest.run : StoreRequest → Action Unit
  | openFile path schema pageSize => discard (TableFile.openAt path schema pageSize)
  | setFileBytes path bytes => Store.setFileBytes path bytes
  | writePage file page => file.writePage page
  | register file name primaryKey => Store.register file name primaryKey
  | clearCatalog => Store.clearCatalog
  | addPool config => discard (Store.addPool config)
  | setPage frame page => frame.setPage page
  | ofPool pool request => request.run pool
  | fileInsert file pool txn row => discard (file.insert pool txn row)
  | fileDelete file pool txn row => discard (file.delete pool txn row)
  | flushPage pool id => discard (pool.flushPage id)
  | flushAll pool => pool.flushAll
  | flushTxn pool txn => pool.flushTxn txn
  | discardPage pool id => discard (pool.discardPage id)

/-- The stores that requests lead to from a disk, whether they succeed or fail. -/
inductive Store.Reached : Store → Prop where
  | start (disk : Disk) : Store.Reached (.ofDisk disk)
  | step {store : Store} (reached : store.Reached) (request : StoreRequest) :
      Store.Reached (request.run.after store)

/-! ## Requests keep pools in order -/

/-- Pools that are in order are so after the action. -/
def Action.Orderly {α : Type} (action : Action α) : Prop :=
  ∀ store : Store, store.Tidy → (action.after store).Tidy

namespace Action.Orderly

variable {α β : Type} {action : Action α} {next : α → Action β}

theorem iff_triple : action.Orderly ↔ Preserves Store.Tidy action := by
  refine forall₂_congr fun store _ => ?_
  unfold Action.after
  cases action store <;> exact Iff.rfl

theorem bind (first : action.Orderly) (following : ∀ a, (next a).Orderly) : (action >>= next).Orderly :=
  iff_triple.mpr ((iff_triple.mp first).bind fun a => iff_triple.mp (following a))

theorem discard (h : action.Orderly) : (discard action).Orderly := iff_triple.mpr (iff_triple.mp h).discard

theorem ofCases (h : ∀ store : Store, (∃ failure, action store = .error failure store) ∨
    ∃ a after, action store = .ok a after ∧ after.pools = store.pools ∧ store.frames.size ≤ after.frames.size) :
    action.Orderly := by
  intro store tidy
  unfold Action.after
  rcases h store with ⟨failure, failed⟩ | ⟨a, after, run, pools_eq, le⟩
  · rw [failed]
    exact tidy
  · rw [run]
    exact tidy.congr pools_eq le

theorem ofLooks (h : action.Looks) : action.Orderly := iff_triple.mpr (.ofLooks h)

theorem ofCareful {pool : PoolId} {quiet : α → Prop} (h : pool.Careful quiet action) : action.Orderly := by
  intro store tidy
  unfold Action.after
  cases run : action store with
  | ok a after => exact (h.ok store after a tidy run).1
  | error failure after => exact (h.error store after failure tidy run).1

end Action.Orderly

theorem TableFile.openAt_orderly (path : String) (schema : Schema) (pageSize : Nat) :
    (openAt path schema pageSize).Orderly := .ofCases fun store => by
  unfold openAt
  cases checkSizes schema pageSize with
  | error failure => exact .inl ⟨failure, Action.bind_error (Action.attempt_apply_error rfl store)⟩
  | ok _ =>
    rw [Action.bind_ok (Action.attempt_apply_ok rfl store), Action.bind_ok (Action.get_apply store)]
    cases place_eq : store.disk.locate path with
    | error e => exact .inl ⟨_, Action.bind_error (Action.check_apply_error rfl store)⟩
    | ok place => exact .inr ⟨_, _, Action.bind_ok (Action.check_apply_ok rfl store), rfl, Nat.le_refl _⟩

theorem Store.setFileBytes_orderly (path : String) (bytes : Bytes) : (setFileBytes path bytes).Orderly :=
  .ofCases fun store => by
    unfold setFileBytes
    rw [Action.bind_ok (Action.get_apply store)]
    cases store.disk.locate path with
    | error e => exact .inl ⟨_, Action.bind_error (Action.check_apply_error rfl store)⟩
    | ok place => exact .inr ⟨_, _, Action.bind_ok (Action.check_apply_ok rfl store), rfl, Nat.le_refl _⟩

theorem TableFile.writePage_orderly (file : TableFile) (page : Page) : (file.writePage page).Orderly :=
  .ofCases fun store => by
    rcases file.writePage_cases page store with failed | ⟨_, _, _, _, _, _, _, run⟩
    · exact .inl failed
    · exact .inr ⟨(), _, run, rfl, Nat.le_refl _⟩

theorem Store.addPool_orderly (config : Config) : (addPool config).Orderly := by
  intro store tidy
  unfold Action.after
  cases run : addPool config store with
  | ok pool after =>
    obtain ⟨pos, -, rfl⟩ := of_addPool run
    intro index kept kept_eq
    rw [Array.getElem?_push] at kept_eq
    split at kept_eq
    · cases kept_eq
      exact ⟨[], pos, ⟨[], Cache.valid_fresh _, rfl⟩, .nil, fun _ mem => absurd mem List.not_mem_nil⟩
    · exact tidy index kept kept_eq
  | error failure after =>
    unfold addPool at run
    rcases Action.of_bind_error run with failed | ⟨_, store₁, check_eq, h₁⟩
    · exact Action.of_attempt_error failed ▸ tidy
    · obtain ⟨-, rfl⟩ := Action.of_check_ok check_eq
      rcases Action.of_bind_error h₁ with failed | ⟨cache, store₂, -, h₂⟩
      · exact Action.of_attempt_error failed ▸ tidy
      · cases h₂

namespace PoolId

theorem writeBack_orderly (id : PageId) (frame : FrameId) : (writeBack id frame).Orderly := .ofCases fun store => by
  rcases writeBack_cases id frame store with failed | ⟨_, _, _, run⟩ | ⟨_, _, _, _, _, _, _, _, _, _, _, run⟩
  · exact .inl failed
  · exact .inr ⟨false, store, run, rfl, Nat.le_refl _⟩
  · exact .inr ⟨true, _, run, rfl, by simp⟩

theorem writeBackAll_orderly (entries : List (PageId × FrameId)) : (writeBackAll entries).Orderly := by
  induction entries with
  | nil => exact .ofLooks fun store => .inr ⟨(), rfl⟩
  | cons entry entries ih => exact (writeBack_orderly entry.1 entry.2).discard.bind fun _ => ih

theorem writeBackOf_orderly (txn : TxnId) (entries : List (PageId × FrameId)) : (writeBackOf txn entries).Orderly := by
  induction entries with
  | nil => exact .ofLooks fun store => .inr ⟨(), rfl⟩
  | cons entry entries ih =>
    refine Action.Orderly.bind (.ofLooks entry.2.page_looks) fun page => ?_
    split
    · exact (writeBack_orderly entry.1 entry.2).discard.bind fun _ => ih
    · exact ih

theorem flushPage_orderly (pool : PoolId) (id : PageId) : (pool.flushPage id).Orderly := by
  refine Action.Orderly.bind (fun store tidy => ?_) fun found => ?_
  · unfold Action.after
    rcases get_cases tidy pool id with ⟨run, -⟩ | ⟨_, after, run, tidy', -⟩ | ⟨after, _, run, tidy', -⟩
    · rw [run]
      exact tidy
    · rw [run]
      exact tidy'
    · rw [run]
      exact tidy'
  · cases found with
    | some frame => exact writeBack_orderly id frame
    | none => exact .ofLooks fun store => .inr ⟨false, rfl⟩

theorem flushAll_orderly (pool : PoolId) : pool.flushAll.Orderly :=
  .bind (.ofLooks pool.pool_looks) fun _ => .bind (.ofLooks (Action.guard_looks _)) writeBackAll_orderly

theorem flushTxn_orderly (pool : PoolId) (txn : TxnId) : (pool.flushTxn txn).Orderly :=
  .bind (.ofLooks pool.pool_looks) fun _ => .bind (.ofLooks (Action.guard_looks _)) (writeBackOf_orderly txn)

theorem discardPage_orderly (pool : PoolId) (id : PageId) : (pool.discardPage id).Orderly := by
  refine Action.Orderly.bind (fun store tidy => ?_) fun _ => .ofLooks fun store => .inr ⟨_, rfl⟩
  unfold Action.after
  rcases onCache_cases tidy pool (fun cache => cache.remove id) (fun _ entries => Recency.remove entries id)
      fun cache entries holds _ => holds.remove id with
    ⟨-, run⟩ | ⟨kept, entries, kept', kept_eq, order, run, holds, capacity_eq⟩
  · rw [run]
    exact tidy
  · rw [run]
    have perm : entries.Perm (entries.filter (fun entry => !decide (entry.1 ≠ id)) ++ Recency.forget entries id) :=
      ((List.filter_append_perm _ _).symm.trans List.perm_append_comm)
    exact tidy.setPool rfl (Nat.le_refl _) (order.fewer _ perm holds capacity_eq)

end PoolId

theorem PoolRequest.run_orderly (pool : PoolId) (request : PoolRequest) : (request.run pool).Orderly := by
  cases request with
  | get id => exact .ofCareful (PoolId.Careful.fetch pool id).discard
  | alter id work =>
    intro store tidy
    unfold Action.after
    rcases PoolId.alter_cases tidy pool id work with
      ⟨_, _, after, failed, tidy', -⟩ | ⟨frame, page, _, middle, tidy', -, -, -, -, run_eq⟩
    · rw [run, failed]
      exact tidy'
    · have tidy'' : Store.Tidy { middle with frames := middle.frames.setIfInBounds frame.index (work page).1 } :=
        tidy'.congr rfl (by simp)
      rw [run, run_eq]
      cases (work page).2 with
      | error failure => exact tidy''
      | ok _ => exact tidy''
  | insert txn table row => exact .ofCareful PoolId.Careful.insert.discard
  | delete txn row => exact .ofCareful PoolId.Careful.delete
  | evict => exact .ofCareful PoolId.Careful.evict.discard

theorem StoreRequest.run_orderly (request : StoreRequest) : request.run.Orderly := by
  cases request with
  | openFile path schema pageSize => exact (TableFile.openAt_orderly path schema pageSize).discard
  | setFileBytes path bytes => exact Store.setFileBytes_orderly path bytes
  | writePage file page => exact file.writePage_orderly page
  | register file name primaryKey => exact .ofCases fun store => .inr ⟨(), _, rfl, rfl, Nat.le_refl _⟩
  | clearCatalog => exact .ofCases fun store => .inr ⟨(), _, rfl, rfl, Nat.le_refl _⟩
  | addPool config => exact (Store.addPool_orderly config).discard
  | setPage frame page => exact .ofCases fun store => .inr ⟨(), _, rfl, rfl, by simp⟩
  | ofPool pool request => exact request.run_orderly pool
  | fileInsert file pool txn row => exact .ofCareful PoolId.Careful.fileInsert.discard
  | fileDelete file pool txn row => exact .ofCareful PoolId.Careful.fileDelete.discard
  | flushPage pool id => exact (pool.flushPage_orderly id).discard
  | flushAll pool => exact pool.flushAll_orderly
  | flushTxn pool txn => exact pool.flushTxn_orderly txn
  | discardPage pool id => exact (pool.discardPage_orderly id).discard

theorem Store.Reached.tidy {store : Store} (h : store.Reached) : store.Tidy := by
  induction h with
  | start disk => exact fun index kept kept_eq => by simp [Store.ofDisk] at kept_eq
  | step _ request ih => exact request.run_orderly _ ih

end RowStore
