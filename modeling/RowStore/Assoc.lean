/-!
# Keyed lists

A finite map as the list of its entries, in the order in which the keys arrived. A key occurs once.
-/

namespace RowStore

/-- A finite map whose entries keep the order in which their keys were first inserted. -/
structure Assoc (κ ν : Type) where
  entries : List (κ × ν)
  nodup : (entries.map Prod.fst).Nodup

namespace Assoc

variable {κ ν : Type}

def empty : Assoc κ ν := ⟨[], .nil⟩

instance : Inhabited (Assoc κ ν) := ⟨empty⟩

/-- The keys, oldest first. -/
def keys (m : Assoc κ ν) : List κ := m.entries.map Prod.fst

def size (m : Assoc κ ν) : Nat := m.entries.length

theorem size_eq_length_keys (m : Assoc κ ν) : m.size = m.keys.length := by
  simp [size, keys]

variable [DecidableEq κ]

/-! ## Lookup and update of entry lists -/

def find (key : κ) : List (κ × ν) → Option ν
  | [] => none
  | (k, v) :: rest => if k = key then some v else find key rest

/-- Replaces the value of `key` where it stands, or adds the entry at the end. -/
def put (key : κ) (value : ν) : List (κ × ν) → List (κ × ν)
  | [] => [(key, value)]
  | (k, v) :: rest => if k = key then (key, value) :: rest else (k, v) :: put key value rest

def drop (key : κ) (entries : List (κ × ν)) : List (κ × ν) :=
  entries.filter fun entry => !decide (entry.1 = key)

theorem mem_keys_put {key k : κ} {value : ν} {entries : List (κ × ν)} :
    k ∈ (put key value entries).map Prod.fst ↔ k = key ∨ k ∈ entries.map Prod.fst := by
  induction entries with
  | nil => simp [put]
  | cons entry rest ih =>
    obtain ⟨k', v'⟩ := entry
    by_cases h : k' = key
    · subst h; simp [put]
    · simp only [put, h, ite_false, List.map_cons, List.mem_cons, ih]
      constructor
      · rintro (h | h | h) <;> simp [h]
      · rintro (h | h | h) <;> simp [h]

theorem nodup_put {key : κ} {value : ν} {entries : List (κ × ν)}
    (h : (entries.map Prod.fst).Nodup) : ((put key value entries).map Prod.fst).Nodup := by
  induction entries with
  | nil => simp [put]
  | cons entry rest ih =>
    obtain ⟨k', v'⟩ := entry
    rw [List.map_cons, List.nodup_cons] at h
    by_cases hk : k' = key
    · subst hk; simpa [put] using h
    · simp only [put, hk, ite_false, List.map_cons, List.nodup_cons]
      refine ⟨fun hm => ?_, ih h.2⟩
      rcases mem_keys_put.mp hm with hm | hm
      · exact hk hm
      · exact h.1 hm

theorem nodup_drop {key : κ} {entries : List (κ × ν)}
    (h : (entries.map Prod.fst).Nodup) : ((drop key entries).map Prod.fst).Nodup :=
  h.sublist (List.filter_sublist.map _)

theorem find_put {key k : κ} {value : ν} {entries : List (κ × ν)} :
    find k (put key value entries) = if k = key then some value else find k entries := by
  induction entries with
  | nil => simp [put, find, eq_comm]
  | cons entry rest ih =>
    obtain ⟨k', v'⟩ := entry
    by_cases h : k' = key
    · subst h
      by_cases hk : k = k'
      · simp [put, find, hk]
      · simp [put, find, hk, Ne.symm hk]
    · by_cases hk : k' = k
      · subst hk; simp [put, find, h]
      · simp [put, find, h, hk, ih]

theorem find_drop {key k : κ} {entries : List (κ × ν)} :
    find k (drop key entries) = if k = key then none else find k entries := by
  induction entries with
  | nil => simp [drop, find]
  | cons entry rest ih =>
    obtain ⟨k', v'⟩ := entry
    unfold drop at ih ⊢
    by_cases h : k' = key
    · subst h
      rw [List.filter_cons_of_neg (by simp), ih]
      by_cases hk : k = k'
      · simp [hk]
      · simp [find, hk, Ne.symm hk]
    · rw [List.filter_cons_of_pos (by simpa using h)]
      by_cases hk : k' = k
      · subst hk; simp [find, h]
      · simp only [find, hk, ite_false, ih]

theorem find_eq_none_iff {key : κ} {entries : List (κ × ν)} :
    find key entries = none ↔ key ∉ entries.map Prod.fst := by
  induction entries with
  | nil => simp [find]
  | cons entry rest ih =>
    obtain ⟨k', v'⟩ := entry
    by_cases h : k' = key
    · subst h; simp [find]
    · simpa [find, h, Ne.symm h] using ih

theorem find_eq_some_iff {key : κ} {value : ν} {entries : List (κ × ν)}
    (nodup : (entries.map Prod.fst).Nodup) : find key entries = some value ↔ (key, value) ∈ entries := by
  induction entries with
  | nil => simp [find]
  | cons entry rest ih =>
    obtain ⟨k', v'⟩ := entry
    rw [List.map_cons, List.nodup_cons] at nodup
    have absent : ∀ v, (k', v) ∉ rest := fun v mem => nodup.1 (List.mem_map.mpr ⟨(k', v), mem, rfl⟩)
    by_cases h : k' = key
    · subst h
      simp [find, absent, eq_comm]
    · simp [find, h, Ne.symm h, ih nodup.2]

/-! ## The map -/

def get? (m : Assoc κ ν) (key : κ) : Option ν := find key m.entries

def contains (m : Assoc κ ν) (key : κ) : Bool := (m.get? key).isSome

/-- Sets the value of `key`. An entry that is replaced keeps its place. -/
def insert (m : Assoc κ ν) (key : κ) (value : ν) : Assoc κ ν :=
  ⟨put key value m.entries, nodup_put m.nodup⟩

def erase (m : Assoc κ ν) (key : κ) : Assoc κ ν :=
  ⟨drop key m.entries, nodup_drop m.nodup⟩

@[simp] theorem get?_empty (key : κ) : (empty : Assoc κ ν).get? key = none := rfl

theorem get?_insert (m : Assoc κ ν) (key k : κ) (value : ν) :
    (m.insert key value).get? k = if k = key then some value else m.get? k := find_put

theorem get?_erase (m : Assoc κ ν) (key k : κ) :
    (m.erase key).get? k = if k = key then none else m.get? k := find_drop

@[simp] theorem get?_insert_self (m : Assoc κ ν) (key : κ) (value : ν) :
    (m.insert key value).get? key = some value := by simp [get?_insert]

theorem get?_eq_some_iff (m : Assoc κ ν) (key : κ) (value : ν) : m.get? key = some value ↔ (key, value) ∈ m.entries :=
  find_eq_some_iff m.nodup

theorem get?_eq_none_iff (m : Assoc κ ν) (key : κ) : m.get? key = none ↔ key ∉ m.keys :=
  find_eq_none_iff

theorem mem_keys_iff (m : Assoc κ ν) (key : κ) : key ∈ m.keys ↔ m.contains key = true := by
  rw [contains, Option.isSome_iff_ne_none, ne_eq, get?_eq_none_iff, Classical.not_not]

end Assoc

end RowStore
