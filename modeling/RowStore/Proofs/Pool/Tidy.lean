import RowStore.Proofs.Pool.PoolSteps

/-!
# Pools in order

Whatever is asked of a store, each of its pools keeps a list of pages under ids and handles of their own. Nothing is
assumed of the catalog or the disk here, and nothing of the pages themselves.
-/

namespace RowStore

/-! ## Pools with their pages in order -/

/-- A pool keeps these pages under ids and handles of their own. There are `known` pages in memory. -/
structure Pool.Tidy (kept : Pool) (entries : List (PageId × FrameId)) (known : Nat) : Prop where
  pos : 0 < kept.cache.capacity
  holds : kept.cache.Holds entries
  handles : (entries.map Prod.snd).Nodup
  known : ∀ entry ∈ entries, entry.2.index < known

/-- All pools have their pages in order. -/
def Store.Tidy (store : Store) : Prop :=
  ∀ (index : Nat) (kept : Pool), store.pools[index]? = some kept → ∃ entries, kept.Tidy entries store.frames.size

variable {store store' : Store} {pool : PoolId} {kept kept' : Pool} {entries entries' gone : List (PageId × FrameId)}
  {known known' : Nat} {id : PageId} {frame : FrameId}

theorem Pool.Tidy.more (h : kept.Tidy entries known) (le : known ≤ known') : kept.Tidy entries known' :=
  ⟨h.pos, h.holds, h.handles, fun entry mem => Nat.lt_of_lt_of_le (h.known entry mem) le⟩

theorem Pool.Tidy.handles_of_perm (h : kept.Tidy entries known) (perm : entries.Perm (gone ++ entries')) :
    (entries'.map Prod.snd).Nodup ∧ ∀ entry ∈ entries', entry.2.index < known := by
  have handles := (perm.map Prod.snd).nodup_iff.mp h.handles
  rw [List.map_append] at handles
  exact ⟨handles.of_append_right, fun entry mem => h.known entry (perm.mem_iff.mpr (List.mem_append_right _ mem))⟩

theorem Pool.Tidy.fewer (h : kept.Tidy entries known) (gone : List (PageId × FrameId))
    (perm : entries.Perm (gone ++ entries'))
    (holds : kept'.cache.Holds entries') (capacity_eq : kept'.cache.capacity = kept.cache.capacity) :
    kept'.Tidy entries' known := by
  obtain ⟨handles, lt⟩ := h.handles_of_perm perm
  exact ⟨capacity_eq ▸ h.pos, holds, handles, lt⟩

theorem Pool.Tidy.cons (h : kept.Tidy entries known) (perm : entries.Perm (gone ++ entries'))
    (holds : kept'.cache.Holds ((id, ⟨known⟩) :: entries')) (capacity_eq : kept'.cache.capacity = kept.cache.capacity) :
    kept'.Tidy ((id, ⟨known⟩) :: entries') (known + 1) := by
  obtain ⟨handles, lt⟩ := h.handles_of_perm perm
  refine ⟨capacity_eq ▸ h.pos, holds, ?_, fun entry mem => ?_⟩
  · rw [List.map_cons, List.nodup_cons]
    refine ⟨fun mem => ?_, handles⟩
    obtain ⟨entry, entry_mem, same⟩ := List.mem_map.mp mem
    have entry_lt := lt entry entry_mem
    rw [same] at entry_lt
    exact Nat.lt_irrefl _ entry_lt
  · rcases List.mem_cons.mp mem with rfl | mem
    · exact Nat.lt_succ_self known
    · exact Nat.lt_succ_of_lt (lt entry mem)

namespace Store.Tidy

theorem congr (h : store.Tidy) (pools_eq : store'.pools = store.pools)
    (le : store.frames.size ≤ store'.frames.size) : store'.Tidy := by
  intro index kept kept_eq
  rw [pools_eq] at kept_eq
  obtain ⟨entries, tidy⟩ := h index kept kept_eq
  exact ⟨entries, tidy.more le⟩

theorem setPool (h : store.Tidy) (pools_eq : store'.pools = store.pools.setIfInBounds pool.index kept')
    (le : store.frames.size ≤ store'.frames.size) (tidy : kept'.Tidy entries store'.frames.size) : store'.Tidy := by
  intro index kept kept_eq
  rw [pools_eq, Array.getElem?_setIfInBounds] at kept_eq
  split at kept_eq
  · split at kept_eq
    · cases kept_eq
      exact ⟨entries, tidy⟩
    · cases kept_eq
  · obtain ⟨entries, tidy⟩ := h index kept kept_eq
    exact ⟨entries, tidy.more le⟩

end Store.Tidy

/-! ## Resident pages -/

theorem Pool.Tidy.resident_iff (h : kept.Tidy entries known) (kept_eq : store.pools[pool.index]? = some kept) :
    pool.Resident id frame store ↔ (id, frame) ∈ entries := by
  have keeps : pool.Keeps kept.cache.capacity entries store := ⟨kept, kept_eq, h.holds, rfl⟩
  exact keeps.resident_iff id frame

theorem PoolId.of_resident_setPool {other : PoolId} (kept_eq : store.pools[pool.index]? = some kept)
    (order : kept'.Tidy entries' known') (pools_eq : store'.pools = store.pools.setIfInBounds pool.index kept')
    (resident : other.Resident id frame store') :
    other.Resident id frame store ∨ other.index = pool.index ∧ (id, frame) ∈ entries' := by
  have lt := (Array.getElem?_eq_some_iff.mp kept_eq).1
  by_cases same : other.index = pool.index
  · have kept_eq' : store'.pools[other.index]? = some kept' := by
      rw [pools_eq, same]
      exact Array.getElem?_setIfInBounds_self_of_lt lt
    exact .inr ⟨same, (order.resident_iff kept_eq').mp resident⟩
  · obtain ⟨found, found_eq, peek_eq⟩ := resident
    rw [pools_eq, Array.getElem?_setIfInBounds_ne (Ne.symm same)] at found_eq
    exact .inl ⟨found, found_eq, peek_eq⟩

theorem PoolId.not_resident (kept_eq : store.pools[pool.index]? = none) : ¬ pool.Resident id frame store := by
  rintro ⟨kept, kept_eq', -⟩
  cases kept_eq.symm.trans kept_eq'

theorem PoolId.Resident.frame_eq {other : FrameId} (h : pool.Resident id frame store)
    (h' : pool.Resident id other store) : frame = other := by
  obtain ⟨kept, kept_eq, peek_eq⟩ := h
  obtain ⟨kept', kept_eq', peek_eq'⟩ := h'
  cases kept_eq.symm.trans kept_eq'
  exact Option.some.inj (Except.ok.inj (peek_eq.symm.trans peek_eq'))

namespace Store.Tidy

theorem page_of_resident (h : store.Tidy) (resident : pool.Resident id frame store) :
    ∃ page, store.frames[frame.index]? = some page := by
  have ⟨kept, kept_eq, _⟩ := resident
  obtain ⟨entries, tidy⟩ := h pool.index kept kept_eq
  exact ⟨_, Array.getElem?_eq_getElem (tidy.known _ ((tidy.resident_iff kept_eq).mp resident))⟩

theorem id_eq (h : store.Tidy) {other : PageId} (resident : pool.Resident id frame store)
    (resident' : pool.Resident other frame store) : id = other := by
  have ⟨kept, kept_eq, _⟩ := resident
  obtain ⟨entries, tidy⟩ := h pool.index kept kept_eq
  have same := List.inj_on_of_nodup_map tidy.handles ((tidy.resident_iff kept_eq).mp resident)
    ((tidy.resident_iff kept_eq).mp resident') rfl
  exact congrArg Prod.fst same

end Store.Tidy

/-! ## Actions that only look -/

/-- The action leaves every store as it is, whether it has a result or fails. -/
def Action.Looks {α : Type} (action : Action α) : Prop :=
  ∀ store, (∃ failure, action store = .error failure store) ∨ ∃ a, action store = .ok a store

namespace Action

variable {α β : Type} {after : Store}

theorem Looks.store_eq {action : Action α} (h : action.Looks) {a : α} (run : action store = .ok a after) :
    after = store := by
  rcases h store with ⟨failure, failed⟩ | ⟨_, run'⟩
  · cases run.symm.trans failed
  · cases run.symm.trans run'
    rfl

theorem Looks.pure (a : α) : (Pure.pure a : Action α).Looks := fun _ => .inr ⟨a, rfl⟩

theorem Looks.fail (failure : Failure) : (Action.fail failure : Action α).Looks := fun _ => .inl ⟨failure, rfl⟩

theorem Looks.bind {first : Action α} {next : α → Action β} (h : first.Looks) (following : ∀ a, (next a).Looks) :
    (first >>= next).Looks := by
  intro store
  rcases h store with ⟨failure, failed⟩ | ⟨a, run⟩
  · exact .inl ⟨failure, bind_error failed⟩
  · rw [bind_ok run]
    exact following a store

end Action

theorem Store.lookUp_looks {α : Type} (look : Catalog → Except StoreError α) : (Store.lookUp look).Looks := by
  intro store
  cases found : look store.catalog with
  | error e => exact .inl ⟨_, lookUp_error found⟩
  | ok a => exact .inr ⟨a, lookUp_ok found⟩

theorem Action.attempt_looks {α : Type} (result : Except Failure α) : (attempt result).Looks := by
  intro store
  cases result with
  | error failure => exact .inl ⟨_, attempt_apply_error rfl store⟩
  | ok a => exact .inr ⟨a, attempt_apply_ok rfl store⟩

theorem Action.guard_looks {α : Type} (result : Except Abort α) : (guard result).Looks :=
  attempt_looks (Failure.ofGuard result)

theorem FrameId.page_looks (frame : FrameId) : frame.page.Looks := by
  intro store
  cases frame_eq : store.frames[frame.index]? with
  | none => exact .inl ⟨_, page_error frame_eq⟩
  | some page => exact .inr ⟨page, page_eq frame_eq⟩

theorem TableFile.bytes_looks (file : TableFile) : file.bytes.Looks :=
  fun store => Action.attempt_looks (Failure.ofCheck (store.disk.read file.place)) store

theorem TableFile.pageCount_looks (file : TableFile) : file.pageCount.Looks := by
  intro store
  cases read_eq : store.disk.read file.place with
  | error e => exact .inl ⟨_, Action.bind_error (Action.check_apply_error read_eq store)⟩
  | ok bytes => exact .inr ⟨_, pageCount_eq read_eq⟩

theorem PoolId.pool_error (missing : store.pools[pool.index]? = none) :
    pool.pool store = .error (.aborted .unknownHandle) store := by
  unfold PoolId.pool
  rw [Action.bind_ok (Action.get_apply store), missing]
  rfl

theorem PoolId.pool_looks (pool : PoolId) : pool.pool.Looks := by
  intro store
  cases kept_eq : store.pools[pool.index]? with
  | none => exact .inl ⟨_, pool_error kept_eq⟩
  | some kept => exact .inr ⟨kept, pool_eq kept_eq⟩

/-! ## What the parts of a request can do -/

namespace TableFile

theorem writeBytes_cases (file : TableFile) (number : UInt32) (data : Bytes) (store : Store) :
    (∃ failure, file.writeBytes number data store = .error failure store) ∨
      ∃ offset disk meters, (file.pageId number).offset file.pageSize = .ok offset ∧
        store.disk.writeAt file.place offset data = .ok disk ∧
        file.writeBytes number data store = .ok () { store with disk, meters } := by
  cases offset_eq : (file.pageId number).offset file.pageSize with
  | error cause => exact .inl ⟨_, Action.bind_error (Action.guard_apply_error offset_eq store)⟩
  | ok offset =>
    cases write_eq : store.disk.writeAt file.place offset data with
    | error e => exact .inl ⟨_, writeBytes_error offset_eq write_eq⟩
    | ok disk => exact .inr ⟨offset, disk, _, rfl, write_eq, writeBytes_ok offset_eq write_eq⟩

theorem writePage_cases (file : TableFile) (page : Page) (store : Store) :
    (∃ failure, file.writePage page store = .error failure store) ∨
      ∃ data offset disk meters, page.encode = .ok data ∧
        (file.pageId page.id.number).offset file.pageSize = .ok offset ∧
        store.disk.writeAt file.place offset data = .ok disk ∧
        file.writePage page store = .ok () { store with disk, meters } := by
  by_cases table_eq : page.id.table = file.id
  · cases encode_eq : page.encode with
    | error cause =>
      refine .inl ⟨.aborted cause, ?_⟩
      unfold writePage
      simp only [table_eq, ne_eq, not_true, ite_false]
      exact Action.bind_error (Action.guard_apply_error encode_eq store)
    | ok data =>
      rw [writePage_eq table_eq encode_eq]
      rcases file.writeBytes_cases page.id.number data store with
        failed | ⟨offset, disk, meters, offset_eq, write_eq, run⟩
      · exact .inl failed
      · exact .inr ⟨data, offset, disk, meters, rfl, offset_eq, write_eq, run⟩
  · refine .inl ⟨.refused (.rowNotOnPage page.id), ?_⟩
    unfold writePage
    simp only [table_eq, ne_eq, not_false_iff, ite_true]
    rfl

theorem readPage_cases (file : TableFile) (number : UInt32) (store : Store) :
    ∃ meters, (∃ failure, file.readPage number store = .error failure { store with meters }) ∨
      ∃ page, file.readPage number store = .ok page { store with meters } := by
  unfold readPage
  cases read_eq : store.disk.read file.place with
  | error e => exact ⟨store.meters, .inl ⟨_, Action.bind_error (Action.check_apply_error read_eq store)⟩⟩
  | ok bytes =>
    rw [Action.bind_ok (bytes_eq read_eq)]
    cases file.pageBytes number bytes with
    | error failure => exact ⟨store.meters, .inl ⟨_, Action.bind_error (Action.attempt_apply_error rfl store)⟩⟩
    | ok part =>
      rw [Action.bind_ok (Action.attempt_apply_ok rfl store), Action.bind_ok (count_eq ..)]
      refine ⟨store.meters.modify file.serial Meter.countRead, ?_⟩
      cases Page.decode (file.pageId number) file.schema part with
      | error failure => exact .inl ⟨failure, Action.attempt_apply_error rfl _⟩
      | ok page => exact .inr ⟨page, Action.attempt_apply_ok rfl _⟩

end TableFile

namespace PoolId

theorem onCache_cases {α : Type} (tidy : store.Tidy) (pool : PoolId)
    (change : Cache PageId FrameId → Except Abort (Cache PageId FrameId × α))
    (model : Nat → List (PageId × FrameId) → List (PageId × FrameId) × α)
    (follows : ∀ (cache : Cache PageId FrameId) (entries : List (PageId × FrameId)), cache.Holds entries →
      0 < cache.capacity → Cache.Follows cache.capacity (change cache) (model cache.capacity entries)) :
    (store.pools[pool.index]? = none ∧ pool.onCache change store = .error (.aborted .unknownHandle) store) ∨
      ∃ kept entries kept', store.pools[pool.index]? = some kept ∧ kept.Tidy entries store.frames.size ∧
        pool.onCache change store = .ok (model kept.cache.capacity entries).2
          { store with pools := store.pools.setIfInBounds pool.index kept' } ∧
        kept'.cache.Holds (model kept.cache.capacity entries).1 ∧
        kept'.cache.capacity = kept.cache.capacity := by
  cases kept_eq : store.pools[pool.index]? with
  | none =>
    exact .inl ⟨rfl, Action.bind_error (pool_error kept_eq)⟩
  | some kept =>
    obtain ⟨entries, order⟩ := tidy pool.index kept kept_eq
    obtain ⟨cache, change_eq, holds, capacity_eq⟩ := follows kept.cache entries order.holds order.pos
    exact .inr ⟨kept, entries, { kept with cache }, rfl, order, onCache_eq kept_eq change_eq, holds, capacity_eq⟩

theorem writeBack_cases (id : PageId) (frame : FrameId) (store : Store) :
    (∃ failure, writeBack id frame store = .error failure store) ∨
      (∃ page, store.frames[frame.index]? = some page ∧ page.isDirty = false ∧
        writeBack id frame store = .ok false store) ∨
      ∃ page file data offset disk meters, store.frames[frame.index]? = some page ∧
        store.catalog.file id.table = .ok file ∧ page.encode = .ok data ∧
        (file.pageId page.id.number).offset file.pageSize = .ok offset ∧
        store.disk.writeAt file.place offset data = .ok disk ∧
        writeBack id frame store = .ok true
          { store with disk, meters, frames := store.frames.setIfInBounds frame.index (page.markDirty none) } := by
  cases frame_eq : store.frames[frame.index]? with
  | none => exact .inl ⟨_, Action.bind_error (FrameId.page_error frame_eq)⟩
  | some page =>
    cases dirty : page.isDirty with
    | false =>
      refine .inr (.inl ⟨page, rfl, dirty, ?_⟩)
      unfold writeBack
      rw [Action.bind_ok (FrameId.page_eq frame_eq), if_neg (by simp [dirty])]
      rfl
    | true =>
      rw [writeBack_dirty frame_eq dirty]
      cases found : store.catalog.file id.table with
      | error e => exact .inl ⟨_, Action.bind_error (Store.lookUp_error found)⟩
      | ok file =>
        rw [Action.bind_ok (Store.lookUp_ok found)]
        rcases file.writePage_cases page store with
          ⟨failure, failed⟩ | ⟨data, offset, disk, meters, encode_eq, offset_eq, write_eq, run⟩
        · exact .inl ⟨failure, Action.bind_error failed⟩
        · refine .inr (.inr ⟨page, file, data, offset, disk, meters, rfl, rfl, encode_eq, offset_eq, write_eq, ?_⟩)
          rw [Action.bind_ok run, Action.bind_ok (FrameId.setPage_eq ..)]
          rfl

end PoolId

end RowStore
