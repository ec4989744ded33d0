import RowStore.Proofs.Cache.Links

/-!
# A cache and its order of use

The nodes of a cache are linked in one chain. The index leads to every node of the chain, and the places that hold no
node are the free ones. Each operation keeps this and changes the chain in one way.
-/

namespace RowStore.Cache

variable {κ ν : Type} [DecidableEq κ]

/-- The spots of a cache, most recently used first: all nodes of its arena, in the order in which they are linked. -/
structure Valid (cache : Cache κ ν) (spots : List (Spot κ ν)) : Prop where
  linked : Linked cache.nodes none spots none
  head_eq : cache.head = firstPlace spots none
  tail_eq : cache.tail = lastPlace none spots
  nodup : (places spots).Nodup
  index_iff : ∀ key place, cache.index.get? key = some place ↔ (key, place) ∈ labels spots
  live : ∀ place node, cache.nodes[place]? = some (some node) → place ∈ places spots
  free_nodup : cache.free.Nodup
  mem_free_iff : ∀ place, place ∈ cache.free ↔ cache.nodes[place]? = some none
  room : cache.nodes.size ≤ cache.capacity

namespace Valid

variable {cache : Cache κ ν} {spots : List (Spot κ ν)}

/-! ## What a valid cache is like -/

theorem place_lt (h : Valid cache spots) {place : Nat} (mem : place ∈ places spots) :
    place < cache.nodes.size := by
  obtain ⟨spot, hs, rfl⟩ := List.mem_map.mp mem
  obtain ⟨prev, next, here⟩ := h.linked.node_of_mem hs
  exact (Array.getElem?_eq_some_iff.mp here).1

theorem length_le_size (h : Valid cache spots) : spots.length ≤ cache.nodes.size := by
  have : (places spots).length ≤ (List.range cache.nodes.size).length :=
    h.nodup.length_le_of_subset fun i hi => List.mem_range.mpr (h.place_lt hi)
  simpa using this

theorem length_le_capacity (h : Valid cache spots) : spots.length ≤ cache.capacity :=
  Nat.le_trans h.length_le_size h.room

theorem get?_index (h : Valid cache spots) {spot : Spot κ ν} (mem : spot ∈ spots) :
    cache.index.get? spot.key = some spot.place :=
  (h.index_iff _ _).mpr (List.mem_map_of_mem mem)

theorem keys_nodup (h : Valid cache spots) : (spots.map Spot.key).Nodup := by
  have places_ne : spots.Pairwise fun a b => a.place ≠ b.place := List.pairwise_map.mp h.nodup
  refine List.pairwise_map.mpr (places_ne.imp_of_mem fun {a b} ha hb ne same => ne ?_)
  have := h.get?_index ha
  rw [same, h.get?_index hb] at this
  exact (Option.some.inj this).symm

theorem cases_key (h : Valid cache spots) (key : κ) :
    (cache.index.get? key = none ∧ ∀ spot ∈ spots, spot.key ≠ key) ∨
      ∃ xs spot ys, spots = xs ++ spot :: ys ∧ spot.key = key ∧ cache.index.get? key = some spot.place := by
  cases hi : cache.index.get? key with
  | none =>
    refine .inl ⟨rfl, ?_⟩
    rintro spot mem rfl
    rw [h.get?_index mem] at hi
    cases hi
  | some place =>
    obtain ⟨spot, mem, label_eq⟩ := List.mem_map.mp ((h.index_iff _ _).mp hi)
    cases label_eq
    obtain ⟨xs, ys, rfl⟩ := List.append_of_mem mem
    exact .inr ⟨xs, spot, ys, rfl, rfl, rfl⟩

theorem size_eq (h : Valid cache spots) : cache.size = spots.length := by
  have same : ∀ key, key ∈ cache.index.keys ↔ key ∈ spots.map Spot.key := by
    intro key
    rw [Assoc.mem_keys_iff, Assoc.contains, Option.isSome_iff_exists]
    constructor
    · rintro ⟨place, hp⟩
      obtain ⟨spot, mem, label_eq⟩ := List.mem_map.mp ((h.index_iff _ _).mp hp)
      cases label_eq
      exact List.mem_map_of_mem mem
    · intro mem
      obtain ⟨spot, hs, rfl⟩ := List.mem_map.mp mem
      exact ⟨_, h.get?_index hs⟩
  have le := List.Nodup.length_le_of_subset cache.index.nodup fun key hk => (same key).mp hk
  have ge := h.keys_nodup.length_le_of_subset fun key hk => (same key).mpr hk
  rw [Cache.size, Assoc.size_eq_length_keys]
  simp only [Assoc.keys, List.length_map] at le ge ⊢
  omega

theorem size_le_length (h : Valid cache spots) (full : cache.free = []) : cache.nodes.size ≤ spots.length := by
  have : (List.range cache.nodes.size).length ≤ (places spots).length := by
    refine List.nodup_range.length_le_of_subset fun i hi => ?_
    have lt := List.mem_range.mp hi
    cases hn : cache.nodes[i] with
    | none =>
      have : i ∈ cache.free := (h.mem_free_iff i).mpr (by rw [Array.getElem?_eq_getElem lt, hn])
      simp [full] at this
    | some node => exact h.live i node (by rw [Array.getElem?_eq_getElem lt, hn])
  simpa using this

end Valid

/-! ## Reading the chain -/

theorem Valid.entries_eq {cache : Cache κ ν} {spots : List (Spot κ ν)} (h : Valid cache spots) :
    cache.entries = .ok (spots.map Spot.entry) := by
  obtain ⟨found, walk_eq, map_eq⟩ := walk_linked h.linked h.length_le_size
  rw [entries, h.head_eq, walk_eq, Except.map, map_eq]

theorem Valid.keys_eq {cache : Cache κ ν} {spots : List (Spot κ ν)} (h : Valid cache spots) :
    cache.keys = .ok (spots.map Spot.key) := by
  obtain ⟨found, walk_eq, map_eq⟩ := walk_linked h.linked h.length_le_size
  have map_key := congrArg (List.map Prod.fst) map_eq
  simp only [List.map_map, Function.comp_def, Spot.entry] at map_key
  rw [keys, h.head_eq, walk_eq, Except.map]
  exact congrArg Except.ok map_key

/-! ## Steps that keep a cache valid -/

def fresh (capacity : Nat) : Cache κ ν := ⟨capacity, #[], [], .empty, none, none⟩

theorem valid_fresh (capacity : Nat) : Valid (fresh capacity : Cache κ ν) [] where
  linked := trivial
  head_eq := rfl
  tail_eq := rfl
  nodup := .nil
  index_iff := by simp [fresh]
  live := by simp [fresh]
  free_nodup := .nil
  mem_free_iff := by simp [fresh]
  room := Nat.zero_le _

theorem Valid.relink {cache : Cache κ ν} {spots spots' : List (Spot κ ν)} (h : Valid cache spots)
    {nodes : Array (Option (CacheNode κ ν))} (linked : Linked nodes none spots' none)
    (same : SameOutside (places spots) cache.nodes nodes) (perm : (labels spots').Perm (labels spots)) :
    Valid { cache with nodes, head := firstPlace spots' none, tail := lastPlace none spots' } spots' := by
  have perm_places : (places spots').Perm (places spots) := by
    rw [← map_snd_labels, ← map_snd_labels]
    exact perm.map _
  exact {
  linked := linked
  head_eq := rfl
  tail_eq := rfl
  nodup := perm_places.nodup_iff.mpr h.nodup
  index_iff key place := (h.index_iff key place).trans perm.mem_iff.symm
  live place node hn := by
    by_cases mem : place ∈ places spots
    · exact perm_places.mem_iff.mpr mem
    · rw [same.2 place mem] at hn
      exact absurd (h.live place node hn) mem
  free_nodup := h.free_nodup
  mem_free_iff place := by
    by_cases mem : place ∈ places spots
    · have used : place ∉ cache.free := fun hf =>
        h.linked.not_free mem ((h.mem_free_iff place).mp hf)
      exact iff_of_false used (linked.not_free (perm_places.mem_iff.mpr mem))
    · rw [same.2 place mem]
      exact h.mem_free_iff place
  room := by rw [same.1]; exact h.room }

theorem Valid.promote {cache : Cache κ ν} {xs ys : List (Spot κ ν)} {spot : Spot κ ν}
    (h : Valid cache (xs ++ spot :: ys)) :
    ∃ cache', cache.promote spot.place = .ok cache' ∧ Valid cache' (spot :: (xs ++ ys)) ∧
      cache'.capacity = cache.capacity := by
  by_cases first : cache.head = some spot.place
  · have nil : xs = [] := by
      cases xs with
      | nil => rfl
      | cons x xs =>
        rw [h.head_eq, List.cons_append, firstPlace_cons, Option.some.injEq] at first
        have := (List.nodup_cons.mp h.nodup).1
        simp [first] at this
    subst nil
    exact ⟨cache, by rw [Cache.promote, if_pos first]; rfl, h, rfl⟩
  · obtain ⟨nodes₁, unlink_eq, linked₁, here₁, same₁⟩ :=
      unlink_linked h.linked h.head_eq h.tail_eq h.nodup
    have perm : (spot :: (xs ++ ys)).Perm (xs ++ spot :: ys) := List.perm_middle.symm
    obtain ⟨nodes₂, link_eq, linked₂, same₂⟩ := linkFirst_linked
      { cache with nodes := nodes₁, head := firstPlace (xs ++ ys) none, tail := lastPlace none (xs ++ ys) }
      linked₁ rfl rfl ((perm.map Spot.place).nodup_iff.mpr h.nodup) here₁
    refine ⟨{ cache with nodes := nodes₂, head := _, tail := _ }, ?_,
      h.relink linked₂ (same₁.trans (same₂.mono (perm.map _).subset)) (perm.map _), rfl⟩
    rw [Cache.promote, if_neg first, unlink_eq]
    exact link_eq

theorem Valid.modifyValue {cache : Cache κ ν} {xs ys : List (Spot κ ν)} {spot : Spot κ ν}
    (h : Valid cache (xs ++ spot :: ys)) (value : ν) :
    ∃ cache', cache.modifyNode spot.place (fun node => { node with value }) = .ok cache' ∧
      Valid cache' (xs ++ { spot with value } :: ys) ∧ cache'.capacity = cache.capacity := by
  obtain ⟨before, here, behind⟩ := linked_append.mp h.linked
  obtain ⟨absent, -⟩ := nodup_places_middle h.nodup
  have other : ∀ i, i ∈ places xs ∨ i ∈ places ys → i ≠ spot.place := by
    rintro i hi rfl
    exact absent (by simpa [places] using hi)
  let nodes := cache.nodes.setIfInBounds spot.place
    (some ⟨spot.key, value, lastPlace none xs, firstPlace ys none⟩)
  have linked : Linked nodes none (xs ++ { spot with value } :: ys) none :=
    linked_append.mpr ⟨before.congr fun i hi => getElem?_set_ne _ (other i (.inl hi)) _,
      getElem?_set_self here _, behind.congr fun i hi => getElem?_set_ne _ (other i (.inr hi)) _⟩
  have valid := h.relink linked ((sameOutside_set ..).mono (by simp)) (by simp [labels])
  refine ⟨{ cache with nodes }, modifyNode_eq_ok cache here _, ?_, rfl⟩
  have head_eq : cache.head = firstPlace (xs ++ { spot with value } :: ys) none := by
    rw [h.head_eq]; cases xs <;> rfl
  have tail_eq : cache.tail = lastPlace none (xs ++ { spot with value } :: ys) := by
    rw [h.tail_eq, lastPlace_append, lastPlace_append]; rfl
  rw [← head_eq, ← tail_eq] at valid
  exact valid

theorem Valid.release {cache : Cache κ ν} {xs ys : List (Spot κ ν)} {spot : Spot κ ν}
    (h : Valid cache (xs ++ spot :: ys)) :
    ∃ cache', cache.release spot.place = .ok (cache', spot.key, spot.value) ∧ Valid cache' (xs ++ ys) ∧
      cache'.capacity = cache.capacity := by
  obtain ⟨nodes, unlink_eq, linked, here, same⟩ := unlink_linked h.linked h.head_eq h.tail_eq h.nodup
  obtain ⟨absent, nodup⟩ := nodup_places_middle h.nodup
  have mem_iff : ∀ i, i ∈ places (xs ++ spot :: ys) ↔ i = spot.place ∨ i ∈ places (xs ++ ys) := by
    intro i
    rw [places, (List.perm_middle.map Spot.place).mem_iff, List.map_cons, List.mem_cons]
  refine ⟨{ cache with
    nodes := nodes.setIfInBounds spot.place none
    free := spot.place :: cache.free
    index := cache.index.erase spot.key
    head := firstPlace (xs ++ ys) none
    tail := lastPlace none (xs ++ ys) }, ?_, ?_, rfl⟩
  · rw [Cache.release, unlink_eq]
    simp only [bind, Except.bind, Cache.node, here]
    rfl
  · exact {
    linked := linked.congr fun i hi => getElem?_set_ne _ (by rintro rfl; exact absent hi) _
    head_eq := rfl
    tail_eq := rfl
    nodup := nodup
    index_iff key place := by
      have keys_nodup := h.keys_nodup
      rw [(List.perm_middle.map Spot.key).nodup_iff, List.map_cons, List.nodup_cons] at keys_nodup
      rw [Assoc.get?_erase]
      split
      · next same_key =>
        refine iff_of_false (by simp) fun mem => keys_nodup.1 ?_
        obtain ⟨other, ho, label_eq⟩ := List.mem_map.mp mem
        cases label_eq
        exact List.mem_map.mpr ⟨other, ho, same_key⟩
      · next other_key =>
        rw [h.index_iff, (List.perm_middle.map _).mem_iff, List.map_cons, List.mem_cons,
          or_iff_right (by rintro ⟨⟩; exact other_key rfl)]
    live place node hn := by
      by_cases eq : place = spot.place
      · subst eq
        simp [getElem?_set_self here] at hn
      · rw [getElem?_set_ne _ eq] at hn
        by_cases mem : place ∈ places (xs ++ spot :: ys)
        · exact ((mem_iff place).mp mem).resolve_left eq
        · rw [same.2 place mem] at hn
          exact absurd (h.live place node hn) mem
    free_nodup := by
      refine List.nodup_cons.mpr ⟨fun mem => ?_, h.free_nodup⟩
      exact h.linked.not_free ((mem_iff _).mpr (.inl rfl)) ((h.mem_free_iff _).mp mem)
    mem_free_iff place := by
      by_cases eq : place = spot.place
      · subst eq
        exact iff_of_true List.mem_cons_self (getElem?_set_self here _)
      · rw [List.mem_cons, or_iff_right eq, getElem?_set_ne _ eq, h.mem_free_iff]
        by_cases mem : place ∈ places (xs ++ spot :: ys)
        · have mem' := ((mem_iff place).mp mem).resolve_left eq
          exact iff_of_false (h.linked.not_free mem) (linked.not_free mem')
        · rw [same.2 place mem]
    room := by
      rw [Array.size_setIfInBounds, same.1]
      exact h.room }

theorem Valid.allocate_eq {cache : Cache κ ν} {spots : List (Spot κ ν)} (h : Valid cache spots)
    (room : spots.length < cache.capacity) (node : CacheNode κ ν) :
    ∃ nodes free place, cache.allocate node = ({ cache with nodes, free }, place) ∧
      place ∉ places spots ∧ nodes[place]? = some (some node) ∧
      (∀ i, i ≠ place → nodes[i]? = cache.nodes[i]?) ∧ free.Nodup ∧
      (∀ i, i ∈ free ↔ i ≠ place ∧ i ∈ cache.free) ∧ nodes.size ≤ cache.capacity := by
  cases hf : cache.free with
  | nil =>
    have old : ∀ i, i ∈ places spots → i ≠ cache.nodes.size := fun i hi => Nat.ne_of_lt (h.place_lt hi)
    refine ⟨cache.nodes.push (some node), [], cache.nodes.size, by simp [allocate, hf],
      fun mem => old _ mem rfl, by simp, fun i hi => ?_, .nil, by simp, ?_⟩
    · rw [Array.getElem?_push, if_neg hi]
    · have := h.size_le_length hf
      rw [Array.size_push]
      omega
  | cons place free =>
    have here : cache.nodes[place]? = some none := (h.mem_free_iff place).mp (by simp [hf])
    have nodup := h.free_nodup
    rw [hf, List.nodup_cons] at nodup
    refine ⟨cache.nodes.setIfInBounds place (some node), free, place, by simp [allocate, hf],
      fun mem => h.linked.not_free mem here, getElem?_set_self here _,
      fun i hi => getElem?_set_ne _ hi _, nodup.2, fun i => ?_, ?_⟩
    · rw [List.mem_cons]
      constructor
      · intro mem
        exact ⟨by rintro rfl; exact nodup.1 mem, .inr mem⟩
      · rintro ⟨ne, mem⟩
        exact mem.resolve_left ne
    · rw [Array.size_setIfInBounds]
      exact h.room

theorem Valid.insertFirst {cache : Cache κ ν} {spots : List (Spot κ ν)} (h : Valid cache spots)
    {key : κ} (absent : ∀ spot ∈ spots, spot.key ≠ key) (room : spots.length < cache.capacity) (value : ν) :
    ∃ cache' place, cache.insertFirst key value = .ok cache' ∧ Valid cache' (⟨place, key, value⟩ :: spots) ∧
      cache'.capacity = cache.capacity := by
  obtain ⟨nodes₁, free, place, allocate_eq, fresh, here, others, free_nodup, mem_free, size_le⟩ :=
    h.allocate_eq room ⟨key, value, none, none⟩
  have ne_place : ∀ i ∈ places spots, i ≠ place := by
    rintro i hi rfl
    exact fresh hi
  have linked₁ : Linked nodes₁ none spots none := h.linked.congr fun i hi => others i (ne_place i hi)
  have nodup : (places (⟨place, key, value⟩ :: spots)).Nodup := List.nodup_cons.mpr ⟨fresh, h.nodup⟩
  obtain ⟨nodes₂, link_eq, linked₂, same₂⟩ := linkFirst_linked
    { cache with nodes := nodes₁, free, index := cache.index.insert key place }
    linked₁ h.head_eq h.tail_eq nodup here
  refine ⟨{ cache with
    nodes := nodes₂
    free
    index := cache.index.insert key place
    head := some place
    tail := lastPlace none (⟨place, key, value⟩ :: spots) }, place, ?_, ?_, rfl⟩
  · rw [Cache.insertFirst, allocate_eq]
    exact link_eq
  · exact {
    linked := linked₂
    head_eq := rfl
    tail_eq := rfl
    nodup := nodup
    index_iff k p := by
      rw [Assoc.get?_insert, labels, List.map_cons, List.mem_cons]
      split
      · next same_key =>
        subst same_key
        rw [Option.some.injEq, or_iff_left]
        · simp [eq_comm]
        · intro mem
          obtain ⟨other, ho, label_eq⟩ := List.mem_map.mp mem
          cases label_eq
          exact absent other ho rfl
      · next other_key =>
        rw [h.index_iff, or_iff_right (by rintro ⟨⟩; exact other_key rfl)]
    live i node hn := by
      by_cases mem : i ∈ places (⟨place, key, value⟩ :: spots)
      · exact mem
      · rw [same₂.2 i mem] at hn
        rw [places, List.map_cons, List.mem_cons, not_or] at mem
        rw [others i mem.1] at hn
        exact absurd (h.live i node hn) mem.2
    free_nodup := free_nodup
    mem_free_iff i := by
      rw [mem_free]
      by_cases mem : i ∈ places (⟨place, key, value⟩ :: spots)
      · refine iff_of_false ?_ (linked₂.not_free mem)
        rintro ⟨ne, hi⟩
        exact h.linked.not_free ((List.mem_cons.mp mem).resolve_left ne) ((h.mem_free_iff i).mp hi)
      · rw [same₂.2 i mem]
        rw [places, List.map_cons, List.mem_cons, not_or] at mem
        rw [others i mem.1, and_iff_right mem.1, h.mem_free_iff]
    room := by rw [same₂.1]; exact size_le }

end RowStore.Cache
