import RowStore.Cache

/-!
# Lists in order of use

The entries of a cache as a plain list, the most recently used first, with every call of a cache restated on that list.
-/

namespace RowStore

/-! ## Calls -/

/-- A call of a cache. -/
inductive CacheCall (κ ν : Type) where
  | get (key : κ)
  | peek (key : κ)
  | put (key : κ) (value : ν)
  | getOrInsert (key : κ) (value : ν)
  | remove (key : κ)
  | discardLast
  | contains (key : κ)
  | keys
  | entries
  | size

inductive CacheAnswer (κ ν : Type) where
  | value (value : Option ν)
  | evicted (entry : Option (κ × ν))
  | kept (value : ν) (evicted : Option (κ × ν))
  | found (found : Bool)
  | keys (keys : List κ)
  | entries (entries : List (κ × ν))
  | size (size : Nat)

variable {κ ν : Type}

namespace Recency

/-! ## Making room in a list -/

def discardLast (entries : List (κ × ν)) : List (κ × ν) × Option (κ × ν) := (entries.dropLast, entries.getLast?)

/-- Gives up the last entry if there are as many as there may be. -/
def makeRoom (capacity : Nat) (entries : List (κ × ν)) : List (κ × ν) × Option (κ × ν) :=
  if capacity ≤ entries.length then discardLast entries else (entries, none)

def add (capacity : Nat) (entries : List (κ × ν)) (key : κ) (value : ν) : List (κ × ν) × Option (κ × ν) :=
  let (entries, evicted) := makeRoom capacity entries
  ((key, value) :: entries, evicted)

theorem length_makeRoom {capacity : Nat} (pos : 0 < capacity) (entries : List (κ × ν))
    (le : entries.length ≤ capacity) : (makeRoom capacity entries).1.length < capacity := by
  rw [makeRoom]
  split
  · simp only [discardLast, List.length_dropLast]
    omega
  · next short => exact Nat.lt_of_not_le short

theorem mem_of_mem_makeRoom {capacity : Nat} {entries : List (κ × ν)}
    {entry : κ × ν} (mem : entry ∈ (makeRoom capacity entries).1) : entry ∈ entries := by
  rw [makeRoom] at mem
  split at mem
  · exact List.dropLast_subset _ mem
  · exact mem

end Recency

variable [DecidableEq κ]

namespace Cache

/-! ## Calls of a cache -/

def perform (cache : Cache κ ν) : CacheCall κ ν → Except Abort (Cache κ ν × CacheAnswer κ ν)
  | .get key => (cache.get key).map fun (cache, value) => (cache, .value value)
  | .peek key => (cache.peek key).map fun value => (cache, .value value)
  | .put key value => (cache.put key value).map fun (cache, entry) => (cache, .evicted entry)
  | .getOrInsert key value =>
    (cache.getOrInsert key value).map fun (cache, value, entry) => (cache, .kept value entry)
  | .remove key => (cache.remove key).map fun (cache, value) => (cache, .value value)
  | .discardLast => cache.discardLast.map fun (cache, entry) => (cache, .evicted entry)
  | .contains key => .ok (cache, .found (cache.contains key))
  | .keys => cache.keys.map fun keys => (cache, .keys keys)
  | .entries => cache.entries.map fun entries => (cache, .entries entries)
  | .size => .ok (cache, .size cache.size)

def run (cache : Cache κ ν) : List (CacheCall κ ν) → Except Abort (Cache κ ν × List (CacheAnswer κ ν))
  | [] => .ok (cache, [])
  | call :: calls =>
    match cache.perform call with
    | .error cause => .error cause
    | .ok (cache, answer) => (cache.run calls).map fun (cache, answers) => (cache, answer :: answers)

end Cache

/-! ## The same calls on a list -/

namespace Recency

def value? (entries : List (κ × ν)) (key : κ) : Option ν :=
  (entries.find? fun entry => entry.1 = key).map Prod.snd

def forget (entries : List (κ × ν)) (key : κ) : List (κ × ν) := entries.filter fun entry => entry.1 ≠ key

/-- The entry of a key as the most recently used one, in place of the one before. -/
def use (entries : List (κ × ν)) (key : κ) (value : ν) : List (κ × ν) := (key, value) :: forget entries key

def get (entries : List (κ × ν)) (key : κ) : List (κ × ν) × Option ν :=
  match value? entries key with
  | some value => (use entries key value, some value)
  | none => (entries, none)

def put (capacity : Nat) (entries : List (κ × ν)) (key : κ) (value : ν) : List (κ × ν) × Option (κ × ν) :=
  match value? entries key with
  | some _ => (use entries key value, none)
  | none => add capacity entries key value

def getOrInsert (capacity : Nat) (entries : List (κ × ν)) (key : κ) (value : ν) :
    List (κ × ν) × ν × Option (κ × ν) :=
  match value? entries key with
  | some old => (use entries key old, old, none)
  | none =>
    let (entries, evicted) := add capacity entries key value
    (entries, value, evicted)

def remove (entries : List (κ × ν)) (key : κ) : List (κ × ν) × Option ν :=
  (forget entries key, value? entries key)

/-- Carries out a call on a list that may have `capacity` entries. -/
def perform (capacity : Nat) (entries : List (κ × ν)) : CacheCall κ ν → List (κ × ν) × CacheAnswer κ ν
  | .get key => (get entries key).map id .value
  | .peek key => (entries, .value (value? entries key))
  | .put key value => (put capacity entries key value).map id .evicted
  | .getOrInsert key value => (getOrInsert capacity entries key value).map id fun (value, entry) => .kept value entry
  | .remove key => (remove entries key).map id .value
  | .discardLast => (discardLast entries).map id .evicted
  | .contains key => (entries, .found (value? entries key).isSome)
  | .keys => (entries, .keys (entries.map Prod.fst))
  | .entries => (entries, .entries entries)
  | .size => (entries, .size entries.length)

def run (capacity : Nat) (entries : List (κ × ν)) : List (CacheCall κ ν) → List (κ × ν) × List (CacheAnswer κ ν)
  | [] => (entries, [])
  | call :: calls =>
    let (entries, answer) := perform capacity entries call
    (run capacity entries calls).map id (answer :: ·)

theorem value?_eq_none_iff {entries : List (κ × ν)} {key : κ} :
    value? entries key = none ↔ ∀ entry ∈ entries, entry.1 ≠ key := by
  simp [value?]

end Recency

end RowStore
