import Mathlib.Data.List.Nodup
import RowStore.Proofs.Cache.Refinement

/-!
# A larger cache keeps what a smaller one keeps

Two caches carry out the same calls, and one of them may have more entries than the other. The keys of the smaller one
are always among those of the larger one, in the same order of use.

The two give up entries at different times, and a key that only the larger one has is used there and added here. So the
order of the keys alone is not kept from call to call: what keeps it is that the larger cache is never full before the
smaller one is.
-/

namespace RowStore

variable {κ ν : Type}

namespace Recency

/-! ## The keys after a call -/

/-- The keys that stay when there has to be room for one more. -/
def room (capacity : Nat) (keys : List κ) : List κ := if capacity ≤ keys.length then keys.dropLast else keys

theorem room_sublist (capacity : Nat) (keys : List κ) : (room capacity keys).Sublist keys := by
  rw [room]
  split
  · exact List.dropLast_sublist keys
  · exact List.Sublist.refl keys

theorem length_room (capacity : Nat) (keys : List κ) :
    (room capacity keys).length = if capacity ≤ keys.length then keys.length - 1 else keys.length := by
  rw [room]
  split
  · exact List.length_dropLast
  · rfl

theorem map_fst_makeRoom (capacity : Nat) (entries : List (κ × ν)) :
    (makeRoom capacity entries).1.map Prod.fst = room capacity (entries.map Prod.fst) := by
  rw [makeRoom, room, List.length_map]
  split
  · exact List.map_dropLast
  · rfl

theorem map_fst_add (capacity : Nat) (entries : List (κ × ν)) (key : κ) (value : ν) :
    (add capacity entries key value).1.map Prod.fst = key :: room capacity (entries.map Prod.fst) :=
  congrArg (key :: ·) (map_fst_makeRoom capacity entries)

theorem dropLast_sublist_dropLast {small large : List κ} (h : small.Sublist large) :
    small.dropLast.Sublist large.dropLast := by
  rw [← List.reverse_sublist, ← List.tail_reverse, ← List.tail_reverse]
  exact h.reverse.tail

/-! ## Keys within keys -/

/-- The keys of a list that may have `capacity` entries are among those of a list that may have `slack` more, in the
same order, and the second list is never full before the first one is. -/
structure Within (capacity slack : Nat) (small large : List κ) : Prop where
  sublist : small.Sublist large
  nodup : large.Nodup
  length_le : large.length ≤ small.length + slack
  small_le : small.length ≤ capacity
  large_le : large.length ≤ capacity + slack

namespace Within

variable {capacity slack : Nat} {small large : List κ} {key : κ}

theorem absent (h : Within capacity slack small large) (absent : key ∉ large) : key ∉ small :=
  fun mem => absent (h.sublist.subset mem)

theorem dropLast_both (h : Within capacity slack small large) :
    Within capacity slack small.dropLast large.dropLast where
  sublist := dropLast_sublist_dropLast h.sublist
  nodup := h.nodup.sublist (List.dropLast_sublist large)
  length_le := by
    have le := h.length_le
    rw [List.length_dropLast, List.length_dropLast]
    omega
  small_le := Nat.le_trans (List.dropLast_sublist small).length_le h.small_le
  large_le := Nat.le_trans (List.dropLast_sublist large).length_le h.large_le

/-- Both lists add a key. If the larger one has to give up its last entry then so has the smaller one. -/
theorem add_both (h : Within capacity slack small large) (pos : 0 < capacity) (absent : key ∉ large) :
    Within capacity slack (key :: room capacity small) (key :: room (capacity + slack) large) where
  sublist := by
    refine List.Sublist.cons_cons key ?_
    by_cases full : capacity + slack ≤ large.length
    · have full' : capacity ≤ small.length := Nat.le_of_add_le_add_right (Nat.le_trans full h.length_le)
      rw [room, room, if_pos full, if_pos full']
      exact dropLast_sublist_dropLast h.sublist
    · rw [room.eq_def (capacity + slack), if_neg full]
      exact (room_sublist capacity small).trans h.sublist
  nodup := List.nodup_cons.mpr
    ⟨fun mem => absent ((room_sublist _ large).subset mem), h.nodup.sublist (room_sublist _ large)⟩
  length_le := by
    have le := h.length_le
    have small_le := h.small_le
    have large_le := h.large_le
    rw [List.length_cons, List.length_cons, length_room, length_room]
    split <;> split <;> omega
  small_le := by
    have le := h.small_le
    rw [List.length_cons, length_room]
    split <;> omega
  large_le := by
    have le := h.large_le
    rw [List.length_cons, length_room]
    split <;> omega

end Within

variable [DecidableEq κ]

def bring (keys : List κ) (key : κ) : List κ := key :: keys.erase key

/-- The keys after a call. The values do not matter to them. -/
def keysAfter (capacity : Nat) (keys : List κ) : CacheCall κ ν → List κ
  | .get key => if key ∈ keys then bring keys key else keys
  | .put key _ | .getOrInsert key _ => if key ∈ keys then bring keys key else key :: room capacity keys
  | .remove key => keys.erase key
  | .discardLast => keys.dropLast
  | .peek _ | .contains _ | .keys | .entries | .size => keys

theorem length_bring {keys : List κ} {key : κ} (mem : key ∈ keys) : (bring keys key).length = keys.length := by
  have pos := List.length_pos_of_mem mem
  rw [bring, List.length_cons, List.length_erase_of_mem mem]
  omega

theorem map_fst_forget {entries : List (κ × ν)} (nodup : (entries.map Prod.fst).Nodup) (key : κ) :
    (forget entries key).map Prod.fst = (entries.map Prod.fst).erase key := by
  rw [nodup.erase_eq_filter, forget, List.filter_map]
  congr 2
  funext entry
  exact decide_not

theorem map_fst_use {entries : List (κ × ν)} (nodup : (entries.map Prod.fst).Nodup) (key : κ) (value : ν) :
    (use entries key value).map Prod.fst = bring (entries.map Prod.fst) key :=
  congrArg (key :: ·) (map_fst_forget nodup key)

theorem value?_cases (entries : List (κ × ν)) (key : κ) :
    (∃ value, value? entries key = some value ∧ key ∈ entries.map Prod.fst) ∨
      value? entries key = none ∧ key ∉ entries.map Prod.fst := by
  cases found : value? entries key with
  | none =>
    refine .inr ⟨rfl, fun mem => ?_⟩
    obtain ⟨entry, kept, rfl⟩ := List.mem_map.mp mem
    exact value?_eq_none_iff.mp found entry kept rfl
  | some value =>
    refine .inl ⟨value, rfl, Classical.byContradiction fun absent => ?_⟩
    have missing : value? entries key = none := by
      refine value?_eq_none_iff.mpr fun entry kept same => absent ?_
      rw [← same]
      exact List.mem_map_of_mem kept
    rw [missing] at found
    contradiction

theorem value?_isSome_iff (entries : List (κ × ν)) (key : κ) :
    (value? entries key).isSome = true ↔ key ∈ entries.map Prod.fst := by
  rcases value?_cases entries key with ⟨value, found, mem⟩ | ⟨missing, absent⟩
  · simp only [found, mem, Option.isSome_some]
  · simp only [missing, absent, Option.isSome_none, Bool.false_eq_true]

theorem map_fst_perform (capacity : Nat) {entries : List (κ × ν)} (nodup : (entries.map Prod.fst).Nodup)
    (call : CacheCall κ ν) :
    (perform capacity entries call).1.map Prod.fst = keysAfter capacity (entries.map Prod.fst) call := by
  cases call with
  | get key =>
    simp only [perform, keysAfter, get]
    rcases value?_cases entries key with ⟨value, found, mem⟩ | ⟨missing, absent⟩
    · rw [found, if_pos mem]
      exact map_fst_use nodup key value
    · rw [missing, if_neg absent]
      rfl
  | put key value =>
    simp only [perform, keysAfter, put]
    rcases value?_cases entries key with ⟨old, found, mem⟩ | ⟨missing, absent⟩
    · rw [found, if_pos mem]
      exact map_fst_use nodup key value
    · rw [missing, if_neg absent]
      exact map_fst_add capacity entries key value
  | getOrInsert key value =>
    simp only [perform, keysAfter, getOrInsert]
    rcases value?_cases entries key with ⟨old, found, mem⟩ | ⟨missing, absent⟩
    · rw [found, if_pos mem]
      exact map_fst_use nodup key old
    · rw [missing, if_neg absent]
      exact map_fst_add capacity entries key value
  | remove key => exact map_fst_forget nodup key
  | discardLast => exact List.map_dropLast
  | peek key | contains key | keys | entries | size => rfl

namespace Within

variable {capacity slack : Nat} {small large : List κ} {key : κ}

theorem bring_both (h : Within capacity slack small large) (mem : key ∈ small) :
    Within capacity slack (bring small key) (bring large key) where
  sublist := (h.sublist.erase key).cons_cons key
  nodup := List.nodup_cons.mpr ⟨h.nodup.not_mem_erase, h.nodup.erase key⟩
  length_le := by
    rw [length_bring mem, length_bring (h.sublist.subset mem)]
    exact h.length_le
  small_le := by
    rw [length_bring mem]
    exact h.small_le
  large_le := by
    rw [length_bring (h.sublist.subset mem)]
    exact h.large_le

theorem bring_large (h : Within capacity slack small large) (absent : key ∉ small) (mem : key ∈ large) :
    Within capacity slack small (bring large key) where
  sublist := by
    have within := h.sublist.erase key
    rw [List.erase_of_not_mem absent] at within
    exact within.cons key
  nodup := List.nodup_cons.mpr ⟨h.nodup.not_mem_erase, h.nodup.erase key⟩
  length_le := by
    rw [length_bring mem]
    exact h.length_le
  small_le := h.small_le
  large_le := by
    rw [length_bring mem]
    exact h.large_le

theorem add_small (h : Within capacity slack small large) (pos : 0 < capacity) (absent : key ∉ small)
    (mem : key ∈ large) : Within capacity slack (key :: room capacity small) (bring large key) where
  sublist := by
    have within := h.sublist.erase key
    rw [List.erase_of_not_mem absent] at within
    exact ((room_sublist capacity small).trans within).cons_cons key
  nodup := List.nodup_cons.mpr ⟨h.nodup.not_mem_erase, h.nodup.erase key⟩
  length_le := by
    have le := h.length_le
    rw [length_bring mem, List.length_cons, length_room]
    split <;> omega
  small_le := by
    have le := h.small_le
    rw [List.length_cons, length_room]
    split <;> omega
  large_le := by
    rw [length_bring mem]
    exact h.large_le

theorem erase_both (h : Within capacity slack small large) (key : κ) :
    Within capacity slack (small.erase key) (large.erase key) where
  sublist := h.sublist.erase key
  nodup := h.nodup.erase key
  length_le := by
    have le := h.length_le
    by_cases mem : key ∈ small
    · have pos := List.length_pos_of_mem mem
      rw [List.length_erase_of_mem mem, List.length_erase_of_mem (h.sublist.subset mem)]
      omega
    · rw [List.erase_of_not_mem mem]
      exact Nat.le_trans List.length_erase_le le
  small_le := Nat.le_trans List.length_erase_le h.small_le
  large_le := Nat.le_trans List.length_erase_le h.large_le

theorem put_both (h : Within capacity slack small large) (pos : 0 < capacity) (key : κ) :
    Within capacity slack (if key ∈ small then bring small key else key :: room capacity small)
      (if key ∈ large then bring large key else key :: room (capacity + slack) large) := by
  by_cases mem : key ∈ large
  · rw [if_pos mem]
    split
    case isTrue mem' => exact h.bring_both mem'
    case isFalse absent => exact h.add_small pos absent mem
  · rw [if_neg mem, if_neg (h.absent mem)]
    exact h.add_both pos mem

theorem keysAfter (h : Within capacity slack small large) (pos : 0 < capacity) (call : CacheCall κ ν) :
    Within capacity slack (keysAfter capacity small call) (Recency.keysAfter (capacity + slack) large call) := by
  cases call with
  | get key =>
    simp only [Recency.keysAfter]
    by_cases mem : key ∈ large
    · rw [if_pos mem]
      split
      case isTrue mem' => exact h.bring_both mem'
      case isFalse absent => exact h.bring_large absent mem
    · rw [if_neg mem, if_neg (h.absent mem)]
      exact h
  | put key value | getOrInsert key value => exact h.put_both pos key
  | remove key => exact h.erase_both key
  | discardLast => exact h.dropLast_both
  | peek key | contains key | keys | entries | size => exact h

end Within

end Recency

namespace CacheCall

def key? : CacheCall κ ν → Option κ
  | .get key | .peek key | .put key _ | .getOrInsert key _ | .remove key | .contains key => some key
  | .discardLast | .keys | .entries | .size => none

end CacheCall

variable [DecidableEq κ]

namespace Cache

/-! ## Two caches -/

/-- The cache has an entry for the key that the call is about. -/
def Hits (cache : Cache κ ν) : CacheCall κ ν → Prop
  | .get key => ∃ cache' value, cache.get key = .ok (cache', some value)
  | .peek key => ∃ value, cache.peek key = .ok (some value)
  | .remove key => ∃ cache' value, cache.remove key = .ok (cache', some value)
  | .contains key | .put key _ | .getOrInsert key _ => cache.contains key = true
  | .discardLast | .keys | .entries | .size => False

variable {cache : Cache κ ν} {entries : List (κ × ν)}

theorem get_snd (entries : List (κ × ν)) (key : κ) : (Recency.get entries key).2 = Recency.value? entries key := by
  rw [Recency.get]
  split <;> simp only [*]

theorem Holds.hits_iff (h : cache.Holds entries) (call : CacheCall κ ν) :
    cache.Hits call ↔ ∃ key, call.key? = some key ∧ key ∈ entries.map Prod.fst := by
  have kept (key : κ) : (∃ value, Recency.value? entries key = some value) ↔
      ∃ key', some key = some key' ∧ key' ∈ entries.map Prod.fst := by
    rw [← Option.isSome_iff_exists, Recency.value?_isSome_iff]
    simp only [Option.some.injEq, exists_eq_left']
  cases call with
  | get key =>
    obtain ⟨cache₁, get_eq, -⟩ := h.get key
    rw [get_snd] at get_eq
    simp only [Hits, CacheCall.key?, ← kept, get_eq, Except.ok.injEq, Prod.mk.injEq, exists_and_left,
      exists_eq_left']
  | peek key => simp only [Hits, CacheCall.key?, ← kept, h.peek_eq, Except.ok.injEq]
  | remove key =>
    obtain ⟨cache₁, remove_eq, -⟩ := h.remove key
    simp only [Hits, CacheCall.key?, ← kept, remove_eq, Recency.remove, Except.ok.injEq, Prod.mk.injEq,
      exists_and_left, exists_eq_left']
  | contains key | put key value | getOrInsert key value =>
    simp only [Hits, CacheCall.key?, ← kept, h.contains_eq, Option.isSome_iff_exists]
  | discardLast | keys | entries | size => simp [Hits, CacheCall.key?]

/-- A cache that may have `slack` more entries than another one has the entries for its keys, in the same order. -/
structure Covers (slack : Nat) (large small : Cache κ ν) : Prop where
  capacity_eq : large.capacity = small.capacity + slack
  pos : 0 < small.capacity
  within : ∃ entries entries', small.Holds entries ∧ large.Holds entries' ∧
    Recency.Within small.capacity slack (entries.map Prod.fst) (entries'.map Prod.fst)

variable {slack : Nat} {large small : Cache κ ν}

theorem covers_fresh {capacity : Nat} (pos : 0 < capacity) :
    Covers slack (fresh (capacity + slack) : Cache κ ν) (fresh capacity) where
  capacity_eq := rfl
  pos := pos
  within := ⟨[], [], ⟨[], valid_fresh capacity, rfl⟩, ⟨[], valid_fresh (capacity + slack), rfl⟩,
    ⟨List.Sublist.refl [], List.nodup_nil, Nat.zero_le _, Nat.zero_le _, Nat.zero_le _⟩⟩

theorem Covers.perform (h : Covers slack large small) (call : CacheCall κ ν) :
    ∃ small' large' answer answer', small.perform call = .ok (small', answer) ∧
      large.perform call = .ok (large', answer') ∧ Covers slack large' small' ∧ small'.capacity = small.capacity := by
  obtain ⟨entries, entries', holds, holds', within⟩ := h.within
  have pos' : 0 < large.capacity := by
    rw [h.capacity_eq]
    exact Nat.add_pos_left h.pos slack
  obtain ⟨small', perform_eq, after, capacity_eq⟩ := holds.perform h.pos call
  obtain ⟨large', perform_eq', after', capacity_eq'⟩ := holds'.perform pos' call
  refine ⟨small', large', _, _, perform_eq, perform_eq', ⟨?_, ?_, _, _, after, after', ?_⟩, capacity_eq⟩
  · rw [capacity_eq', capacity_eq, h.capacity_eq]
  · rw [capacity_eq]
    exact h.pos
  · rw [Recency.map_fst_perform _ holds.keys_nodup, Recency.map_fst_perform _ holds'.keys_nodup, capacity_eq,
      h.capacity_eq]
    exact within.keysAfter h.pos call

theorem Covers.run (h : Covers slack large small) (calls : List (CacheCall κ ν)) :
    ∃ small' large' answers answers', small.run calls = .ok (small', answers) ∧
      large.run calls = .ok (large', answers') ∧ Covers slack large' small' := by
  induction calls generalizing small large with
  | nil => exact ⟨small, large, [], [], rfl, rfl, h⟩
  | cons call calls ih =>
    obtain ⟨small₁, large₁, answer, answer', perform_eq, perform_eq', after, -⟩ := h.perform call
    obtain ⟨small', large', answers, answers', run_eq, run_eq', last⟩ := ih after
    refine ⟨small', large', answer :: answers, answer' :: answers', ?_, ?_, last⟩
    · simp only [Cache.run, perform_eq, run_eq]
      rfl
    · simp only [Cache.run, perform_eq', run_eq']
      rfl

theorem Covers.hits (h : Covers slack large small) {call : CacheCall κ ν} (hit : small.Hits call) :
    large.Hits call := by
  obtain ⟨entries, entries', holds, holds', within⟩ := h.within
  obtain ⟨key, about, mem⟩ := (holds.hits_iff call).mp hit
  exact (holds'.hits_iff call).mpr ⟨key, about, within.sublist.subset mem⟩

/-- After any calls the keys of a cache are among those of a cache that may have more entries, in the same order of use,
and the larger one has no more entries to spare than it may have. So whatever is found in the smaller one is found in
the larger one. -/
theorem keys_sublist_of_capacity_le {capacity capacity' : Nat} (pos : 0 < capacity) (le : capacity ≤ capacity')
    (calls : List (CacheCall κ ν)) :
    ∃ small large answers answers' keys keys',
      (fresh capacity : Cache κ ν).run calls = .ok (small, answers) ∧
      (fresh capacity' : Cache κ ν).run calls = .ok (large, answers') ∧
      small.keys = .ok keys ∧ large.keys = .ok keys' ∧ keys.Sublist keys' ∧
      large.size ≤ small.size + (capacity' - capacity) ∧ (∀ call, small.Hits call → large.Hits call) ∧
      (capacity' < capacityLimit → (new capacity : Except Failure (Cache κ ν)) = .ok (fresh capacity) ∧
        (new capacity' : Except Failure (Cache κ ν)) = .ok (fresh capacity')) := by
  obtain ⟨slack, rfl⟩ := Nat.exists_eq_add_of_le le
  obtain ⟨small, large, answers, answers', run_eq, run_eq', covers⟩ :=
    (covers_fresh pos : Covers slack (fresh (capacity + slack) : Cache κ ν) (fresh capacity)).run calls
  obtain ⟨entries, entries', holds, holds', within⟩ := covers.within
  refine ⟨small, large, answers, answers', _, _, run_eq, run_eq', holds.keys_eq, holds'.keys_eq, within.sublist, ?_,
    fun call => covers.hits, fun below => ⟨new_eq_ok pos ?_, new_eq_ok ?_ below⟩⟩
  · have length_le := within.length_le
    rw [List.length_map, List.length_map] at length_le
    rw [holds.size_eq, holds'.size_eq, Nat.add_sub_cancel_left]
    exact length_le
  · exact Nat.lt_of_le_of_lt le below
  · exact Nat.lt_of_lt_of_le pos le

theorem keys_sublist_of_capacity_le_of_one_and_two :
    0 < 1 ∧ 1 ≤ 2 ∧ ∃ small large answers answers',
      (fresh 1 : Cache Nat Nat).run [.put 1 10, .put 2 20, .getOrInsert 1 30, .remove 2, .put 3 40] =
        .ok (small, answers) ∧
      (fresh 2 : Cache Nat Nat).run [.put 1 10, .put 2 20, .getOrInsert 1 30, .remove 2, .put 3 40] =
        .ok (large, answers') ∧
      small.keys = .ok [3] ∧ large.keys = .ok [3, 1] ∧ ∀ call, small.Hits call → large.Hits call := by
  have pos : 0 < 1 := by decide
  have le : 1 ≤ 2 := by decide
  obtain ⟨small, large, answers, answers', -, -, run_eq, run_eq', -, -, -, -, hits, -⟩ :=
    keys_sublist_of_capacity_le pos le
      [.put 1 10, .put 2 20, .getOrInsert 1 30, .remove 2, (.put 3 40 : CacheCall Nat Nat)]
  have kept : ((fresh 1 : Cache Nat Nat).run [.put 1 10, .put 2 20, .getOrInsert 1 30, .remove 2, .put 3 40]).bind
      (fun ran => ran.1.keys) = .ok [3] := rfl
  have kept' : ((fresh 2 : Cache Nat Nat).run [.put 1 10, .put 2 20, .getOrInsert 1 30, .remove 2, .put 3 40]).bind
      (fun ran => ran.1.keys) = .ok [3, 1] := rfl
  rw [run_eq] at kept
  rw [run_eq'] at kept'
  exact ⟨pos, le, small, large, answers, answers', run_eq, run_eq', kept, kept', hits⟩

end Cache

end RowStore
