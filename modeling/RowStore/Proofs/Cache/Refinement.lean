import RowStore.Proofs.Cache.Order
import RowStore.Proofs.Cache.Recency

/-!
# A cache is a list in order of use

Each call of a cache gives the answer of the list of its entries, and leaves the cache with the entries that the call
leaves in the list. So do any number of calls of a cache that starts without entries.
-/

namespace RowStore

variable {κ ν : Type} [DecidableEq κ]

/-! ## One call -/

namespace Cache

/-- The cache keeps these entries, the most recently used first. -/
def Holds (cache : Cache κ ν) (entries : List (κ × ν)) : Prop :=
  ∃ spots, cache.Valid spots ∧ spots.map Spot.entry = entries

/-- A step of a cache goes as the same step on a list. -/
def Follows {α : Type} (capacity : Nat) (step : Except Abort (Cache κ ν × α)) (model : List (κ × ν) × α) : Prop :=
  ∃ cache', step = .ok (cache', model.2) ∧ cache'.Holds model.1 ∧ cache'.capacity = capacity

theorem Follows.map {α β : Type} {capacity : Nat} {step : Except Abort (Cache κ ν × α)} {model : List (κ × ν) × α}
    (h : Follows capacity step model) (f : α → β) :
    Follows capacity (step.map fun (cache, a) => (cache, f a)) (model.map id f) := by
  obtain ⟨cache', step_eq, holds, capacity_eq⟩ := h
  exact ⟨cache', by rw [step_eq]; rfl, holds, capacity_eq⟩

theorem find?_absent {spots : List (Spot κ ν)} {key : κ} (absent : ∀ s ∈ spots, s.key ≠ key) :
    (spots.map Spot.entry).find? (fun entry => entry.1 = key) = none := by
  refine List.find?_eq_none.mpr fun entry mem => ?_
  obtain ⟨spot, hs, rfl⟩ := List.mem_map.mp mem
  rw [decide_eq_true_iff]
  exact absent spot hs

theorem value?_middle {xs ys : List (Spot κ ν)} {spot : Spot κ ν} (absent : ∀ s ∈ xs, s.key ≠ spot.key) :
    Recency.value? ((xs ++ spot :: ys).map Spot.entry) spot.key = some spot.value := by
  simp [Recency.value?, find?_absent absent, Spot.entry]

theorem value?_absent {spots : List (Spot κ ν)} {key : κ} (absent : ∀ s ∈ spots, s.key ≠ key) :
    Recency.value? (spots.map Spot.entry) key = none := by
  rw [Recency.value?, find?_absent absent, Option.map_none]

theorem forget_absent {spots : List (Spot κ ν)} {key : κ} (absent : ∀ s ∈ spots, s.key ≠ key) :
    Recency.forget (spots.map Spot.entry) key = spots.map Spot.entry := by
  simpa [Recency.forget, Spot.entry] using absent

theorem forget_middle {xs ys : List (Spot κ ν)} {spot : Spot κ ν} (absent : ∀ s ∈ xs ++ ys, s.key ≠ spot.key) :
    Recency.forget ((xs ++ spot :: ys).map Spot.entry) spot.key = (xs ++ ys).map Spot.entry := by
  rw [← forget_absent absent]
  simp [Recency.forget, Spot.entry]

theorem Valid.cases_value? {cache : Cache κ ν} {spots : List (Spot κ ν)} (h : Valid cache spots) (key : κ) :
    (cache.index.get? key = none ∧ Recency.value? (spots.map Spot.entry) key = none ∧
        Recency.forget (spots.map Spot.entry) key = spots.map Spot.entry ∧ ∀ spot ∈ spots, spot.key ≠ key) ∨
      ∃ xs spot ys, spots = xs ++ spot :: ys ∧ spot.key = key ∧ cache.index.get? key = some spot.place ∧
        Recency.value? (spots.map Spot.entry) key = some spot.value ∧
        Recency.forget (spots.map Spot.entry) key = (xs ++ ys).map Spot.entry := by
  rcases h.cases_key key with ⟨none, absent⟩ | ⟨xs, spot, ys, rfl, rfl, found⟩
  · exact .inl ⟨none, value?_absent absent, forget_absent absent, absent⟩
  · have nodup := h.keys_nodup
    rw [(List.perm_middle.map Spot.key).nodup_iff, List.map_cons, List.nodup_cons] at nodup
    have absent : ∀ s ∈ xs ++ ys, s.key ≠ spot.key := fun s hs same =>
      nodup.1 (same ▸ List.mem_map_of_mem hs)
    exact .inr ⟨xs, spot, ys, rfl, rfl, found,
      value?_middle fun s hs => absent s (List.mem_append_left _ hs), forget_middle absent⟩

variable {cache : Cache κ ν} {entries : List (κ × ν)}

theorem Holds.capacity_ge (h : cache.Holds entries) : entries.length ≤ cache.capacity := by
  obtain ⟨spots, valid, rfl⟩ := h
  simpa using valid.length_le_capacity

theorem Holds.keys_nodup (h : cache.Holds entries) : (entries.map Prod.fst).Nodup := by
  obtain ⟨spots, valid, rfl⟩ := h
  simpa [Spot.entry, Function.comp_def] using valid.keys_nodup

theorem Holds.size_eq (h : cache.Holds entries) : cache.size = entries.length := by
  obtain ⟨spots, valid, rfl⟩ := h
  rw [valid.size_eq, List.length_map]

theorem Holds.entries_eq (h : cache.Holds entries) : cache.entries = .ok entries := by
  obtain ⟨spots, valid, rfl⟩ := h
  exact valid.entries_eq

theorem Holds.keys_eq (h : cache.Holds entries) : cache.keys = .ok (entries.map Prod.fst) := by
  obtain ⟨spots, valid, rfl⟩ := h
  rw [valid.keys_eq, List.map_map]
  rfl

theorem Holds.peek_eq (h : cache.Holds entries) (key : κ) :
    cache.peek key = .ok (Recency.value? entries key) := by
  obtain ⟨spots, valid, rfl⟩ := h
  rcases valid.cases_value? key with ⟨index_eq, value_eq, -⟩ | ⟨xs, spot, ys, rfl, rfl, index_eq, value_eq, -⟩
  · rw [value_eq, Cache.peek, index_eq]
  · obtain ⟨prev, next, here⟩ := valid.linked.node_of_mem (List.mem_append_right xs List.mem_cons_self)
    rw [value_eq, Cache.peek, index_eq]
    simp only [node_eq_ok here]
    rfl

theorem Holds.contains_eq (h : cache.Holds entries) (key : κ) :
    cache.contains key = (Recency.value? entries key).isSome := by
  obtain ⟨spots, valid, rfl⟩ := h
  rw [Cache.contains, Assoc.contains]
  rcases valid.cases_value? key with ⟨index_eq, value_eq, -⟩ | ⟨xs, spot, ys, rfl, rfl, index_eq, value_eq, -⟩ <;>
    rw [index_eq, value_eq] <;> rfl

theorem Holds.get (h : cache.Holds entries) (key : κ) :
    Follows cache.capacity (cache.get key) (Recency.get entries key) := by
  obtain ⟨spots, valid, rfl⟩ := h
  rcases valid.cases_value? key with ⟨index_eq, value_eq, -⟩ | ⟨xs, spot, ys, rfl, rfl, index_eq, value_eq, forget_eq⟩
  · rw [Recency.get, value_eq, Cache.get, index_eq]
    exact ⟨cache, rfl, ⟨spots, valid, rfl⟩, rfl⟩
  · obtain ⟨cache', promote_eq, valid', capacity_eq⟩ := valid.promote
    rw [Recency.get, value_eq, Cache.get, index_eq]
    refine ⟨cache', ?_, ⟨_, valid', congrArg (spot.entry :: ·) forget_eq.symm⟩, capacity_eq⟩
    simp only [bind, Except.bind, promote_eq, node_eq_ok valid'.linked.1]
    rfl

theorem Holds.remove (h : cache.Holds entries) (key : κ) :
    Follows cache.capacity (cache.remove key) (Recency.remove entries key) := by
  obtain ⟨spots, valid, rfl⟩ := h
  rcases valid.cases_value? key with
    ⟨index_eq, value_eq, forget_eq, -⟩ | ⟨xs, spot, ys, rfl, rfl, index_eq, value_eq, forget_eq⟩
  · rw [Recency.remove, value_eq, forget_eq, Cache.remove, index_eq]
    exact ⟨cache, rfl, ⟨spots, valid, rfl⟩, rfl⟩
  · obtain ⟨cache', release_eq, valid', capacity_eq⟩ := valid.release
    rw [Recency.remove, value_eq, forget_eq, Cache.remove, index_eq]
    refine ⟨cache', ?_, ⟨_, valid', rfl⟩, capacity_eq⟩
    simp only [release_eq]
    rfl

theorem Holds.discardLast (h : cache.Holds entries) :
    Follows cache.capacity cache.discardLast (Recency.discardLast entries) := by
  obtain ⟨spots, valid, rfl⟩ := h
  rcases List.eq_nil_or_concat spots with rfl | ⟨xs, spot, rfl⟩
  · rw [Cache.discardLast, valid.tail_eq]
    exact ⟨cache, rfl, ⟨[], valid, rfl⟩, rfl⟩
  · rw [List.concat_eq_append] at valid ⊢
    obtain ⟨cache', release_eq, valid', capacity_eq⟩ := valid.release
    rw [Cache.discardLast, valid.tail_eq, lastPlace_append]
    refine ⟨cache', ?_, ⟨xs ++ [], valid', by simp [Recency.discardLast]⟩, capacity_eq⟩
    simp only [lastPlace, release_eq]
    simp [Recency.discardLast, Spot.entry, Except.map]

theorem Holds.makeRoom (h : cache.Holds entries) :
    Follows cache.capacity (if cache.capacity ≤ cache.size then cache.discardLast else .ok (cache, none))
      (Recency.makeRoom cache.capacity entries) := by
  rw [Recency.makeRoom, h.size_eq]
  split
  · exact h.discardLast
  · exact ⟨cache, rfl, h, rfl⟩

theorem Holds.add (h : cache.Holds entries) (pos : 0 < cache.capacity) {key : κ}
    (absent : Recency.value? entries key = none) (value : ν) :
    Follows cache.capacity (cache.add key value) (Recency.add cache.capacity entries key value) := by
  obtain ⟨cache₁, room_eq, ⟨spots, valid, spots_eq⟩, capacity_eq⟩ := h.makeRoom
  have short := Recency.length_makeRoom pos entries h.capacity_ge
  rw [← spots_eq, List.length_map, ← capacity_eq] at short
  have absent' : ∀ spot ∈ spots, spot.key ≠ key := fun spot hs =>
    Recency.value?_eq_none_iff.mp absent _ (Recency.mem_of_mem_makeRoom (spots_eq ▸ List.mem_map_of_mem hs))
  obtain ⟨cache₂, place, insert_eq, valid', capacity_eq'⟩ := valid.insertFirst absent' short value
  refine ⟨cache₂, ?_, ⟨_, valid', ?_⟩, capacity_eq'.trans capacity_eq⟩
  · have step : cache.add key value =
        (if cache.capacity ≤ cache.size then cache.discardLast else .ok (cache, none)) >>=
          fun room => return (← room.1.insertFirst key value, room.2) := by
      rw [Cache.add]
      split <;> rfl
    rw [step, room_eq]
    simp only [bind, Except.bind, insert_eq]
    rfl
  · exact congrArg ((key, value) :: ·) spots_eq

theorem Holds.put (h : cache.Holds entries) (pos : 0 < cache.capacity) (key : κ) (value : ν) :
    Follows cache.capacity (cache.put key value) (Recency.put cache.capacity entries key value) := by
  have ⟨spots, valid, spots_eq⟩ := h
  subst spots_eq
  rcases valid.cases_value? key with ⟨index_eq, value_eq, -⟩ | ⟨xs, spot, ys, rfl, rfl, index_eq, value_eq, forget_eq⟩
  · have := h.add pos value_eq value
    rw [Recency.put, value_eq, Cache.put, index_eq]
    exact this
  · obtain ⟨cache₁, modify_eq, valid₁, capacity_eq₁⟩ := valid.modifyValue value
    obtain ⟨cache₂, promote_eq, valid₂, capacity_eq₂⟩ := valid₁.promote
    rw [Recency.put, value_eq, Cache.put, index_eq]
    refine ⟨cache₂, ?_, ⟨_, valid₂, congrArg ((spot.key, value) :: ·) forget_eq.symm⟩,
      capacity_eq₂.trans capacity_eq₁⟩
    simp only [bind, Except.bind, modify_eq, promote_eq]
    rfl

theorem Holds.getOrInsert (h : cache.Holds entries) (pos : 0 < cache.capacity) (key : κ) (value : ν) :
    Follows cache.capacity (cache.getOrInsert key value)
      (Recency.getOrInsert cache.capacity entries key value) := by
  have ⟨spots, valid, spots_eq⟩ := h
  subst spots_eq
  rcases valid.cases_value? key with ⟨index_eq, value_eq, -⟩ | ⟨xs, spot, ys, rfl, rfl, index_eq, value_eq, forget_eq⟩
  · obtain ⟨cache', add_eq, holds', capacity_eq⟩ := h.add pos value_eq value
    rw [Recency.getOrInsert, value_eq, Cache.getOrInsert, index_eq]
    refine ⟨cache', ?_, holds', capacity_eq⟩
    simp only [bind, Except.bind, add_eq]
    rfl
  · obtain ⟨cache', promote_eq, valid', capacity_eq⟩ := valid.promote
    rw [Recency.getOrInsert, value_eq, Cache.getOrInsert, index_eq]
    refine ⟨cache', ?_, ⟨_, valid', congrArg (spot.entry :: ·) forget_eq.symm⟩, capacity_eq⟩
    simp only [bind, Except.bind, promote_eq, node_eq_ok valid'.linked.1]
    rfl

theorem Holds.perform (h : cache.Holds entries) (pos : 0 < cache.capacity) (call : CacheCall κ ν) :
    Follows cache.capacity (cache.perform call) (Recency.perform cache.capacity entries call) := by
  cases call with
  | get key => exact (h.get key).map CacheAnswer.value
  | peek key => exact ⟨cache, by rw [Cache.perform, h.peek_eq]; rfl, h, rfl⟩
  | put key value => exact (h.put pos key value).map CacheAnswer.evicted
  | getOrInsert key value => exact (h.getOrInsert pos key value).map fun kept => CacheAnswer.kept kept.1 kept.2
  | remove key => exact (h.remove key).map CacheAnswer.value
  | discardLast => exact h.discardLast.map CacheAnswer.evicted
  | contains key => exact ⟨cache, by rw [Cache.perform, h.contains_eq]; rfl, h, rfl⟩
  | keys => exact ⟨cache, by rw [Cache.perform, h.keys_eq]; rfl, h, rfl⟩
  | entries => exact ⟨cache, by rw [Cache.perform, h.entries_eq]; rfl, h, rfl⟩
  | size => exact ⟨cache, by rw [Cache.perform, h.size_eq]; rfl, h, rfl⟩

/-! ## Any number of calls -/

theorem Holds.run (h : cache.Holds entries) (pos : 0 < cache.capacity) (calls : List (CacheCall κ ν)) :
    Follows cache.capacity (cache.run calls) (Recency.run cache.capacity entries calls) := by
  induction calls generalizing cache entries with
  | nil => exact ⟨cache, rfl, h, rfl⟩
  | cons call calls ih =>
    obtain ⟨cache₁, perform_eq, h₁, capacity_eq₁⟩ := h.perform pos call
    obtain ⟨cache₂, run_eq, h₂, capacity_eq₂⟩ := ih h₁ (capacity_eq₁ ▸ pos)
    rw [capacity_eq₁] at run_eq h₂ capacity_eq₂
    refine ⟨cache₂, ?_, h₂, capacity_eq₂⟩
    simp only [Cache.run, perform_eq, run_eq]
    rfl

/-- The answers of a cache are those of a list of entries, the most recently used first. The list never has two entries
for one key, nor more entries than the cache may have. -/
theorem run_fresh_eq_recency {capacity : Nat} (pos : 0 < capacity) (calls : List (CacheCall κ ν)) :
    ∃ cache, (fresh capacity : Cache κ ν).run calls = .ok (cache, (Recency.run capacity [] calls).2) ∧
      cache.entries = .ok (Recency.run capacity [] calls).1 ∧
      ((Recency.run capacity [] calls).1.map Prod.fst).Nodup ∧
      cache.size = (Recency.run capacity [] calls).1.length ∧ cache.size ≤ capacity ∧
      (capacity < capacityLimit → (new capacity : Except Failure (Cache κ ν)) = .ok (fresh capacity)) := by
  have start : (fresh capacity : Cache κ ν).Holds [] := ⟨[], valid_fresh capacity, rfl⟩
  obtain ⟨cache, run_eq, holds, capacity_eq⟩ := start.run pos calls
  have le := holds.capacity_ge
  rw [← holds.size_eq, capacity_eq] at le
  exact ⟨cache, run_eq, holds.entries_eq, holds.keys_nodup, holds.size_eq, le, new_eq_ok pos⟩

theorem run_fresh_eq_recency_of_evicting :
    0 < 1 ∧ ∃ cache : Cache Nat Nat,
      (fresh 1).run [.put 1 10, .getOrInsert 2 20, .peek 1, .remove 2, .put 3 30, .get 3, .entries] =
        .ok (cache, [.evicted none, .kept 20 (some (1, 10)), .value none, .value (some 20), .evicted none,
          .value (some 30), .entries [(3, 30)]]) := by
  have pos : 0 < 1 := by decide
  obtain ⟨cache, run_eq, -⟩ := run_fresh_eq_recency pos
    [.put 1 10, .getOrInsert 2 20, .peek 1, .remove 2, .put 3 30, .get 3, CacheCall.entries]
  exact ⟨pos, cache, run_eq⟩

end Cache

end RowStore
