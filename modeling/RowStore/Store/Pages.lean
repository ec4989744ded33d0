import RowStore.Store.Files

/-!
# Pages in a pool

A pool is the way to the pages of registered tables. A page that is not resident is read from its file, and the page
that makes room for it is written back if it was changed. Changes are made only to resident pages.
-/

namespace RowStore.PoolId

/-! ## Looking -/

def capacity (pool : PoolId) : Action Nat := return (← pool.pool).cache.capacity

def residentCount (pool : PoolId) : Action Nat := return (← pool.pool).cache.size

def isResident (pool : PoolId) (id : PageId) : Action Bool :=
  return (← pool.pool).cache.contains id

/-! ## Writing back -/

/-- Writes a page to its file if it was changed. Tells whether it was. -/
def writeBack (id : PageId) (frame : FrameId) : Action Bool := do
  let page ← frame.page
  if page.isDirty then
    let file ← Store.lookUp fun catalog => catalog.file id.table
    file.writePage page
    frame.setPage (page.markDirty none)
    return true
  else return false

/-- Writes back the page that was given up, if one was. -/
def writeBackEvicted (evicted : Option (PageId × FrameId)) : Action Unit := do
  match evicted with
  | some (id, frame) => discard (writeBack id frame)
  | none => return

/-! ## Fetching and changing -/

/-- Reads a page that is not resident, and keeps it. -/
def load (pool : PoolId) (id : PageId) : Action FrameId := do
  let file ← Store.lookUp fun catalog => catalog.file id.table
  let frame ← Store.addFrame (← file.readPage id.number)
  let (frame, evicted) ← pool.onCache fun cache => cache.getOrInsert id frame
  writeBackEvicted evicted
  return frame

/-- The page, read from its file if it is not resident. It becomes the most recently used. -/
def fetch (pool : PoolId) (id : PageId) : Action FrameId := do
  match ← pool.onCache fun cache => cache.get id with
  | some frame => return frame
  | none => pool.load id

/-- Works on the resident copy of a page. What was done to the page stays, also where the work fails in the end. -/
def alter {α : Type} (pool : PoolId) (id : PageId) (work : Page → Page × Except Failure α) : Action α := do
  let frame ← pool.fetch id
  let resident ← Action.guard ((← pool.pool).cache.peek id)
  if resident = some frame then
    let (page, result) := work (← frame.page)
    frame.setPage page
    Action.attempt result
  else Action.fail (.aborted .pageLost)

/-- A change of a page that leaves it as it was where it fails. -/
def allOrNothing {α : Type} (change : Page → Except Failure (Page × α)) (page : Page) : Page × Except Failure α :=
  match change page with
  | .ok (page, a) => (page, .ok a)
  | .error failure => (page, .error failure)

/-- Changes the resident copy of a page. A change that fails leaves the page as it was. -/
def mutate {α : Type} (pool : PoolId) (id : PageId)
    (change : Page → Except Failure (Page × α)) : Action α :=
  pool.alter id (allOrNothing change)

/-! ## Flushing and giving up -/

/-- Writes one resident page to its file if it was changed. Tells whether it was. The page becomes the most recently
used. -/
def flushPage (pool : PoolId) (id : PageId) : Action Bool := do
  match ← pool.onCache fun cache => cache.get id with
  | some frame => writeBack id frame
  | none => return false

/-- Writes back pages in turn, until one cannot be. -/
def writeBackAll : List (PageId × FrameId) → Action Unit
  | [] => return
  | (id, frame) :: rest => do
    discard (writeBack id frame)
    writeBackAll rest

/-- Writes back in turn the pages that a transaction changed last. -/
def writeBackOf (txn : TxnId) : List (PageId × FrameId) → Action Unit
  | [] => return
  | (id, frame) :: rest => do
    if (← frame.page).dirtier = some txn then discard (writeBack id frame)
    writeBackOf txn rest

/-- Writes all changed pages to their files, the most recently used first. -/
def flushAll (pool : PoolId) : Action Unit := do
  writeBackAll (← Action.guard (← pool.pool).cache.entries)

/-- Writes the pages that a transaction changed last to their files. -/
def flushTxn (pool : PoolId) (txn : TxnId) : Action Unit := do
  writeBackOf txn (← Action.guard (← pool.pool).cache.entries)

/-- Gives up a page with its changes. Tells whether it was resident. -/
def discardPage (pool : PoolId) (id : PageId) : Action Bool := do
  return (← pool.onCache fun cache => cache.remove id).isSome

/-- Gives up the least recently used page and writes it back if it was changed. -/
def evict (pool : PoolId) : Action (Option PageId) := do
  let evicted ← pool.onCache Cache.discardLast
  writeBackEvicted evicted
  return evicted.map Prod.fst

end RowStore.PoolId
