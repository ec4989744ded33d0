import RowStore.Cache
import RowStore.Catalog
import RowStore.Config

/-!
# The store

Everything that requests read and change: the disk, the catalog, the pages in memory, and the pools that keep them. An
action that fails leaves behind what it did before it failed.
-/

namespace RowStore

/-! ## The state -/

/-- A page in memory. The page it names never changes, though the pool may have given it up. -/
structure FrameId where
  index : Nat
  deriving DecidableEq

structure PoolId where
  index : Nat
  deriving DecidableEq

/-- How often pages were read from and written to a table file. -/
structure Meter where
  reads : UInt32
  writes : UInt32
  deriving DecidableEq

/-- A pool: the size that its pages have, and the resident pages in order of use. -/
structure Pool where
  pageSize : Nat
  cache : Cache PageId FrameId

/-- The state of the store. `meters` has one entry for each opening of a table file, by its serial number. -/
structure Store where
  disk : Disk
  meters : Array Meter
  catalog : Catalog
  frames : Array Page
  pools : Array Pool

/-- A store without tables, pages and pools. -/
def Store.ofDisk (disk : Disk) : Store := ⟨disk, #[], .empty, #[], #[]⟩

instance : Inhabited Store := ⟨.ofDisk default⟩

/-! ## Actions -/

/-- A change of the store that has a result or fails. -/
abbrev Action := EStateM Failure Store

namespace Action

variable {α : Type}

def fail (failure : Failure) : Action α := throw failure

/-- Goes on with a result, or gives up with a failure. -/
def attempt (result : Except Failure α) : Action α :=
  match result with
  | .ok a => pure a
  | .error failure => fail failure

/-- Goes on with the result of a check, or refuses. -/
def check (result : Except StoreError α) : Action α := attempt (Failure.ofCheck result)

/-- Goes on with the result of a computation, or aborts. -/
def guard (result : Except Abort α) : Action α := attempt (Failure.ofGuard result)

end Action

/-! ## Pages in memory -/

def FrameId.page (frame : FrameId) : Action Page := do
  match (← get).frames[frame.index]? with
  | some page => return page
  | none => Action.fail (.aborted .unknownHandle)

/-- Changes the page of a handle, for all who hold it. -/
def FrameId.setPage (frame : FrameId) (page : Page) : Action Unit :=
  modify fun store => { store with frames := store.frames.setIfInBounds frame.index page }

/-- A handle of its own for a page. -/
def Store.addFrame (page : Page) : Action FrameId :=
  modifyGet fun store => (⟨store.frames.size⟩, { store with frames := store.frames.push page })

/-! ## Pools -/

def Store.addPool (config : Config) : Action PoolId := do
  Action.check config.check
  let cache ← Action.attempt (Cache.new config.poolPages)
  let store ← get
  set { store with pools := store.pools.push ⟨config.pageSize, cache⟩ }
  return ⟨store.pools.size⟩

def PoolId.pool (pool : PoolId) : Action Pool := do
  match (← get).pools[pool.index]? with
  | some pool => return pool
  | none => Action.fail (.aborted .unknownHandle)

/-- Does something to the cache of a pool. -/
def PoolId.onCache {α : Type} (pool : PoolId)
    (change : Cache PageId FrameId → Except Abort (Cache PageId FrameId × α)) : Action α := do
  let before ← pool.pool
  let (cache, a) ← Action.guard (change before.cache)
  modify fun store => { store with pools := store.pools.setIfInBounds pool.index { before with cache } }
  return a

/-! ## The catalog -/

def Store.lookUp {α : Type} (look : Catalog → Except StoreError α) : Action α := do
  Action.check (look (← get).catalog)

def Store.register (file : TableFile) (name primaryKey : String) : Action Unit :=
  modify fun store => { store with catalog := store.catalog.register file name primaryKey }

def Store.clearCatalog : Action Unit :=
  modify fun store => { store with catalog := .empty }

end RowStore
