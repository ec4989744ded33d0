import RowStore.Proofs.Pool.Requests

/-!
# Requests that fail

A request that fails loses the changes of the pages that it gave up and could not write back, and keeps or saves those
of all others. A changed page of a table that is not registered is always lost when it is given up.
-/

namespace RowStore

variable {pool : PoolId} {request : PoolRequest} {failure : Failure} {store after : Store} {id : PageId}
  {frame : FrameId} {page : Page}

namespace PoolId

/-- A changed page of a table that is not registered is lost when it is given up. -/
theorem lost_of_unregistered (reached : store.Reached) {kept : Pool} {front : List (PageId × FrameId)} {e : StoreError}
    (kept_eq : store.pools[pool.index]? = some kept) (entries_eq : kept.cache.entries = .ok (front ++ [(id, frame)]))
    (frame_eq : store.frames[frame.index]? = some page) (dirty : page.isDirty = true)
    (missing : store.catalog.file id.table = .error e) :
    ∃ after, PoolRequest.evict.run pool store = .error (.refused e) after ∧
      pool.Lost (.refused e) id frame page after := by
  rcases discardLast_cases reached.tidy pool with
    ⟨kept_eq', -⟩ | ⟨kept', entries, middle, kept_eq', holds, run, -, gives⟩
  · cases kept_eq.symm.trans kept_eq'
  · cases kept_eq.symm.trans kept_eq'
    cases holds.entries_eq.symm.trans entries_eq
    rw [List.getLast?_concat] at run gives
    have frame_eq' := gives.frames frame page frame_eq
    have failed : writeBack id frame middle = .error (.refused e) middle := by
      rw [writeBack_dirty frame_eq' dirty]
      exact Action.bind_error (Store.lookUp_error (by rw [gives.catalog, missing]))
    refine ⟨middle, Action.discard_error ?_, (gives.gone id frame rfl).2.1, frame_eq', failed⟩
    exact (Action.bind_ok run).trans (Action.bind_error (Action.discard_error failed))

end PoolId

end RowStore
