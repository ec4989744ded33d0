import RowStore.Assoc
import RowStore.Failure

/-!
# A cache in order of use

A map of bounded size that gives up its least recently used entry to make room for a new one. The entries are nodes of
an arena, linked from the most to the least recently used; an index leads from each key to its node. Places of the arena
that lost their node are used again.
-/

namespace RowStore

/-- An entry with its neighbours: `prev` was used just after it, `next` just before it. -/
structure CacheNode (κ ν : Type) where
  key : κ
  value : ν
  prev : Option Nat
  next : Option Nat
  deriving DecidableEq

/-- A cache. `head` was used last and `tail` longest ago; `free` are the empty places of the arena, the one that is
filled next first. -/
structure Cache (κ ν : Type) where
  capacity : Nat
  nodes : Array (Option (CacheNode κ ν))
  free : List Nat
  index : Assoc κ Nat
  head : Option Nat
  tail : Option Nat

namespace Cache

variable {κ ν : Type}

/-- The number of entries that take more room than memory can address, with 64 bytes for each. -/
def capacityLimit : Nat := 0x200000000000000

/-- A cache without entries. It needs room for one, and the room for all of them is taken at once. -/
def new (capacity : Nat) : Except Failure (Cache κ ν) :=
  if capacity = 0 then .error (.refused (.capacityInvalid capacity))
  else if capacityLimit ≤ capacity then .error (.aborted .outOfMemory)
  else .ok ⟨capacity, #[], [], .empty, none, none⟩

theorem new_eq_ok {capacity : Nat} (h : 0 < capacity) (small : capacity < capacityLimit) :
    (new capacity : Except Failure (Cache κ ν)) = .ok ⟨capacity, #[], [], .empty, none, none⟩ := by
  rw [new, if_neg (by omega), if_neg (by omega)]

def size (cache : Cache κ ν) : Nat := cache.index.size

def isEmpty (cache : Cache κ ν) : Bool := cache.size == 0

/-! ## Nodes and links -/

def node (cache : Cache κ ν) (i : Nat) : Except Abort (CacheNode κ ν) :=
  match cache.nodes[i]? with
  | some (some node) => .ok node
  | _ => .error .deadLink

def modifyNode (cache : Cache κ ν) (i : Nat) (change : CacheNode κ ν → CacheNode κ ν) :
    Except Abort (Cache κ ν) :=
  match cache.node i with
  | .ok node => .ok { cache with nodes := cache.nodes.setIfInBounds i (some (change node)) }
  | .error cause => .error cause

/-- Sets what comes after the node at `prev`, or the head where there is no such node. -/
def setNext (cache : Cache κ ν) (prev next : Option Nat) : Except Abort (Cache κ ν) :=
  match prev with
  | some p => cache.modifyNode p fun node => { node with next }
  | none => .ok { cache with head := next }

/-- Sets what comes before the node at `next`, or the tail where there is no such node. -/
def setPrev (cache : Cache κ ν) (next prev : Option Nat) : Except Abort (Cache κ ν) :=
  match next with
  | some n => cache.modifyNode n fun node => { node with prev }
  | none => .ok { cache with tail := prev }

/-- Takes a node out of the order of use. It stays in the arena. -/
def unlink (cache : Cache κ ν) (i : Nat) : Except Abort (Cache κ ν) := do
  let node ← cache.node i
  let cache ← cache.setNext node.prev node.next
  let cache ← cache.setPrev node.next node.prev
  cache.modifyNode i fun node => { node with prev := none, next := none }

/-- Puts a node that has no place in the order of use at its head. -/
def linkFirst (cache : Cache κ ν) (i : Nat) : Except Abort (Cache κ ν) := do
  let cache' ← cache.modifyNode i fun node => { node with prev := none, next := cache.head }
  let cache' ← cache'.setPrev cache.head (some i)
  return { cache' with head := some i }

/-- Makes a node the most recently used one. -/
def promote (cache : Cache κ ν) (i : Nat) : Except Abort (Cache κ ν) := do
  if cache.head = some i then return cache
  let cache ← cache.unlink i
  cache.linkFirst i

/-- Puts a node into the arena, at an empty place if there is one. -/
def allocate (cache : Cache κ ν) (node : CacheNode κ ν) : Cache κ ν × Nat :=
  match cache.free with
  | i :: free => ({ cache with nodes := cache.nodes.setIfInBounds i (some node), free }, i)
  | [] => ({ cache with nodes := cache.nodes.push (some node) }, cache.nodes.size)

/-- The nodes from a place on, in order of use. No more than `fuel` are visited, which is enough when it is the size of
the arena. -/
def walk (cache : Cache κ ν) : Nat → Option Nat → Except Abort (List (CacheNode κ ν))
  | _, none => .ok []
  | 0, some _ => .error .deadLink
  | fuel + 1, some i => do
    let node ← cache.node i
    let rest ← cache.walk fuel node.next
    return node :: rest

/-! ## Reading -/

/-- The entries, most recently used first. -/
def entries (cache : Cache κ ν) : Except Abort (List (κ × ν)) :=
  (cache.walk cache.nodes.size cache.head).map fun nodes => nodes.map fun node => (node.key, node.value)

/-- The keys, most recently used first. -/
def keys (cache : Cache κ ν) : Except Abort (List κ) :=
  (cache.walk cache.nodes.size cache.head).map fun nodes => nodes.map CacheNode.key

variable [DecidableEq κ]

def contains (cache : Cache κ ν) (key : κ) : Bool := cache.index.contains key

/-- The value of a key. The order of use stays. -/
def peek (cache : Cache κ ν) (key : κ) : Except Abort (Option ν) :=
  match cache.index.get? key with
  | none => .ok none
  | some i => (cache.node i).map fun node => some node.value

/-! ## Changing -/

def insertFirst (cache : Cache κ ν) (key : κ) (value : ν) : Except Abort (Cache κ ν) :=
  let (cache, i) := cache.allocate ⟨key, value, none, none⟩
  { cache with index := cache.index.insert key i }.linkFirst i

/-- Removes the entry of a node. -/
def release (cache : Cache κ ν) (i : Nat) : Except Abort (Cache κ ν × κ × ν) := do
  let cache ← cache.unlink i
  let node ← cache.node i
  let cache := { cache with
    nodes := cache.nodes.setIfInBounds i none
    free := i :: cache.free
    index := cache.index.erase node.key }
  return (cache, node.key, node.value)

def discardLast (cache : Cache κ ν) : Except Abort (Cache κ ν × Option (κ × ν)) :=
  match cache.tail with
  | none => .ok (cache, none)
  | some i => (cache.release i).map fun (cache, entry) => (cache, some entry)

/-- Adds an entry for a new key. Where the cache is full, the least recently used entry makes room first. -/
def add (cache : Cache κ ν) (key : κ) (value : ν) : Except Abort (Cache κ ν × Option (κ × ν)) := do
  let (cache, evicted) ← if cache.capacity ≤ cache.size then cache.discardLast else .ok (cache, none)
  let cache ← cache.insertFirst key value
  return (cache, evicted)

/-- The value of a key, which becomes the most recently used. -/
def get (cache : Cache κ ν) (key : κ) : Except Abort (Cache κ ν × Option ν) := do
  match cache.index.get? key with
  | none => return (cache, none)
  | some i =>
    let cache ← cache.promote i
    let node ← cache.node i
    return (cache, some node.value)

/-- Sets the value of a key, which becomes the most recently used, and tells which entry was given up for it. -/
def put (cache : Cache κ ν) (key : κ) (value : ν) : Except Abort (Cache κ ν × Option (κ × ν)) := do
  match cache.index.get? key with
  | none => cache.add key value
  | some i =>
    let cache ← cache.modifyNode i fun node => { node with value }
    let cache ← cache.promote i
    return (cache, none)

/-- The value of a key, or `value` entered for it. Either way the key becomes the most recently used. -/
def getOrInsert (cache : Cache κ ν) (key : κ) (value : ν) :
    Except Abort (Cache κ ν × ν × Option (κ × ν)) := do
  match cache.index.get? key with
  | none =>
    let (cache, evicted) ← cache.add key value
    return (cache, value, evicted)
  | some i =>
    let cache ← cache.promote i
    let node ← cache.node i
    return (cache, node.value, none)

def remove (cache : Cache κ ν) (key : κ) : Except Abort (Cache κ ν × Option ν) :=
  match cache.index.get? key with
  | none => .ok (cache, none)
  | some i => (cache.release i).map fun (cache, _, value) => (cache, some value)

end Cache

end RowStore
