import Mathlib.Data.List.Induction
import RowStore.Proofs.Cache.Refinement

/-!
# The arena of a cache

Going from node to node visits all nodes of the arena, once each, from the head to the tail along one kind of link and
back along the other. The index leads to each of them by its key, the other places are free, and there are never more
places than the cache may have entries.

This says of the links alone what the chain of a cache says of its entries, so the two hold of the same caches, and
every call keeps the one as it keeps the other.
-/

namespace RowStore.Cache

variable {κ ν : Type} {nodes : Array (Option (CacheNode κ ν))} {link : CacheNode κ ν → Option Nat}
  {start : Option Nat} {order : List Nat}

/-! ## Following links -/

/-- Following a link from node to node visits these places, and leads nowhere from the last one. -/
inductive Trail (nodes : Array (Option (CacheNode κ ν))) (link : CacheNode κ ν → Option Nat) :
    Option Nat → List Nat → Prop where
  | done : Trail nodes link none []
  | step {i : Nat} {node : CacheNode κ ν} {rest : List Nat} (here : nodes[i]? = some (some node))
      (onward : Trail nodes link (link node) rest) : Trail nodes link (some i) (i :: rest)

namespace Trail

theorem unique {other : List Nat} (h : Trail nodes link start order) (h' : Trail nodes link start other) :
    other = order := by
  induction h generalizing other with
  | done =>
    cases h'
    rfl
  | step here _ ih =>
    cases h' with
    | step here' onward' =>
      cases here.symm.trans here'
      rw [ih onward']

theorem head?_eq (h : Trail nodes link start order) : order.head? = start := by
  cases h <;> rfl

theorem drop (front : List Nat) (h : Trail nodes link start (front ++ order)) :
    Trail nodes link order.head? order := by
  induction front generalizing start with
  | nil =>
    have head_eq : order.head? = start := h.head?_eq
    exact head_eq ▸ h
  | cons i front ih =>
    cases h with
    | step here onward => exact ih onward

theorem node (front : List Nat) {i : Nat} {rest : List Nat} (h : Trail nodes link start (front ++ i :: rest)) :
    ∃ node, nodes[i]? = some (some node) ∧ link node = rest.head? := by
  cases h.drop front with
  | step here onward => exact ⟨_, here, onward.head?_eq.symm⟩

end Trail

/-! ## Trails along a chain -/

theorem firstPlace_eq_head? (spots : List (Spot κ ν)) : firstPlace spots none = (places spots).head? := by
  cases spots <;> rfl

theorem lastPlace_eq_getLast? (spots : List (Spot κ ν)) : lastPlace none spots = (places spots).getLast? := by
  rcases List.eq_nil_or_concat spots with rfl | ⟨front, spot, rfl⟩
  · rfl
  · simp [lastPlace]

theorem Linked.forth {before : Option Nat} {spots : List (Spot κ ν)} (linked : Linked nodes before spots none) :
    Trail nodes CacheNode.next (firstPlace spots none) (places spots) := by
  induction spots generalizing before with
  | nil => exact .done
  | cons spot rest ih => exact .step linked.1 (ih linked.2)

theorem Linked.back {after : Option Nat} {spots : List (Spot κ ν)} (linked : Linked nodes none spots after) :
    Trail nodes CacheNode.prev (lastPlace none spots) (places spots).reverse := by
  -- The last of the spots is the first to be visited.
  induction spots using List.reverseRecOn generalizing after with
  | nil => exact .done
  | append_singleton front spot ih =>
    obtain ⟨linked_front, here, -⟩ := linked_append.mp linked
    rw [lastPlace_append, places, List.map_append, List.reverse_append]
    exact .step here (ih linked_front)

/-- Nodes that are visited in turn, and in the reverse order backwards, are a chain. `front` are the places before. -/
theorem exists_linked (front : List Nat) {tail : Option Nat}
    (forth : Trail nodes CacheNode.next order.head? order)
    (back : Trail nodes CacheNode.prev tail (front ++ order).reverse) :
    ∃ spots : List (Spot κ ν), places spots = order ∧ Linked nodes front.getLast? spots none := by
  induction order generalizing front with
  | nil => exact ⟨[], rfl, trivial⟩
  | cons i rest ih =>
    have passed : front ++ i :: rest = (front ++ [i]) ++ rest := by simp
    obtain ⟨spots, places_eq, linked⟩ := ih (front ++ [i]) (Trail.drop [i] forth) (passed ▸ back)
    -- Both ways pass the node of `i`, and each tells one of its neighbours.
    have turned : (front ++ i :: rest).reverse = rest.reverse ++ i :: front.reverse := by simp
    rw [turned] at back
    obtain ⟨⟨key, value, prev, next⟩, here, prev_eq⟩ := back.node rest.reverse
    obtain ⟨node, here', next_eq⟩ := Trail.node [] forth
    cases here.symm.trans here'
    have prev_eq' : prev = front.getLast? := prev_eq.trans List.head?_reverse
    have next_eq' : next = firstPlace spots none := by
      rw [firstPlace_eq_head?, places_eq]
      exact next_eq
    refine ⟨⟨i, key, value⟩ :: spots, congrArg (i :: ·) places_eq, ?_, ?_⟩
    · rw [← prev_eq', ← next_eq']
      exact here
    · rw [List.getLast?_concat] at linked
      exact linked

theorem Linked.mem_labels_iff {before after : Option Nat} {spots : List (Spot κ ν)}
    (linked : Linked nodes before spots after) (live : ∀ i node, nodes[i]? = some (some node) → i ∈ places spots)
    (key : κ) (i : Nat) :
    (key, i) ∈ labels spots ↔ ∃ node, nodes[i]? = some (some node) ∧ node.key = key := by
  constructor
  · intro mem
    obtain ⟨spot, spot_mem, label_eq⟩ := List.mem_map.mp mem
    cases label_eq
    obtain ⟨prev, next, here⟩ := linked.node_of_mem spot_mem
    exact ⟨_, here, rfl⟩
  · rintro ⟨node, here, rfl⟩
    obtain ⟨spot, spot_mem, rfl⟩ := List.mem_map.mp (live i node here)
    obtain ⟨prev, next, here'⟩ := linked.node_of_mem spot_mem
    cases here.symm.trans here'
    exact List.mem_map_of_mem spot_mem

/-! ## Arranged caches -/

variable [DecidableEq κ] {cache : Cache κ ν} {spots : List (Spot κ ν)}

/-- The links of a cache visit the nodes of its arena in this order. Each node is found by its key, the places without a
node are free, and there are no more places than the cache may have entries. -/
structure Arranged (cache : Cache κ ν) (order : List Nat) : Prop where
  forth : Trail cache.nodes CacheNode.next cache.head order
  back : Trail cache.nodes CacheNode.prev cache.tail order.reverse
  ends : order.getLast? = cache.tail
  once : order.Nodup
  visited_iff : ∀ i, i ∈ order ↔ ∃ node, cache.nodes[i]? = some (some node)
  index_iff : ∀ key i, cache.index.get? key = some i ↔ ∃ node, cache.nodes[i]? = some (some node) ∧ node.key = key
  free_once : cache.free.Nodup
  free_iff : ∀ i, i ∈ cache.free ↔ cache.nodes[i]? = some none
  room : cache.nodes.size ≤ cache.capacity

theorem Valid.arranged (h : Valid cache spots) : cache.Arranged (places spots) where
  forth := h.head_eq ▸ h.linked.forth
  back := h.tail_eq ▸ h.linked.back
  ends := by rw [h.tail_eq, lastPlace_eq_getLast?]
  once := h.nodup
  visited_iff i := by
    constructor
    · intro mem
      obtain ⟨spot, spot_mem, rfl⟩ := List.mem_map.mp mem
      obtain ⟨prev, next, here⟩ := h.linked.node_of_mem spot_mem
      exact ⟨_, here⟩
    · rintro ⟨node, here⟩
      exact h.live i node here
  index_iff key i := (h.index_iff key i).trans (h.linked.mem_labels_iff h.live key i)
  free_once := h.free_nodup
  free_iff := h.mem_free_iff
  room := h.room

theorem Arranged.exists_valid (h : cache.Arranged order) :
    ∃ spots : List (Spot κ ν), cache.Valid spots ∧ places spots = order := by
  have head_eq := h.forth.head?_eq
  obtain ⟨spots, rfl, linked⟩ := exists_linked [] (head_eq ▸ h.forth) h.back
  have live : ∀ i node, cache.nodes[i]? = some (some node) → i ∈ places spots := fun i node here =>
    (h.visited_iff i).mpr ⟨node, here⟩
  refine ⟨spots, ?_, rfl⟩
  exact {
  linked := linked
  head_eq := by rw [firstPlace_eq_head?, head_eq]
  tail_eq := by rw [lastPlace_eq_getLast?, h.ends]
  nodup := h.once
  index_iff key i := (h.index_iff key i).trans (linked.mem_labels_iff live key i).symm
  live := live
  free_nodup := h.free_once
  mem_free_iff := h.free_iff
  room := h.room }

/-! ## Calls -/

theorem Arranged.perform (h : cache.Arranged order) (pos : 0 < cache.capacity) (call : CacheCall κ ν) :
    ∃ cache' answer order', cache.perform call = .ok (cache', answer) ∧ cache'.Arranged order' ∧
      cache'.capacity = cache.capacity := by
  obtain ⟨spots, valid, -⟩ := h.exists_valid
  have holds : cache.Holds (spots.map Spot.entry) := ⟨spots, valid, rfl⟩
  obtain ⟨cache', perform_eq, ⟨spots', valid', -⟩, capacity_eq⟩ := holds.perform pos call
  exact ⟨cache', _, _, perform_eq, valid'.arranged, capacity_eq⟩

theorem Arranged.run (h : cache.Arranged order) (pos : 0 < cache.capacity) (calls : List (CacheCall κ ν)) :
    ∃ cache' answers order', cache.run calls = .ok (cache', answers) ∧ cache'.Arranged order' ∧
      cache'.capacity = cache.capacity := by
  induction calls generalizing cache order with
  | nil => exact ⟨cache, [], order, rfl, h, rfl⟩
  | cons call calls ih =>
    obtain ⟨cache₁, answer, order₁, perform_eq, h₁, capacity_eq₁⟩ := h.perform pos call
    obtain ⟨cache₂, answers, order₂, run_eq, h₂, capacity_eq₂⟩ := ih h₁ (capacity_eq₁ ▸ pos)
    refine ⟨cache₂, answer :: answers, order₂, ?_, h₂, capacity_eq₂.trans capacity_eq₁⟩
    simp only [Cache.run, perform_eq, run_eq]
    rfl

theorem Arranged.length_eq (h : cache.Arranged order) : order.length = cache.size := by
  obtain ⟨spots, valid, rfl⟩ := h.exists_valid
  rw [valid.size_eq, List.length_map]

/-- After any calls the links visit the nodes of the arena, once each, from the head to the tail and backwards in the
reverse order. No other order is visited, and it has one place for each entry. The index leads to the nodes by their
keys, all other places are free, and there are never more places than the cache may have entries. -/
theorem run_fresh_arranged {capacity : Nat} (pos : 0 < capacity) (calls : List (CacheCall κ ν)) :
    ∃ cache answers order, (fresh capacity : Cache κ ν).run calls = .ok (cache, answers) ∧ cache.Arranged order ∧
      (∀ other, Trail cache.nodes CacheNode.next cache.head other → other = order) ∧ order.length = cache.size ∧
      cache.nodes.size ≤ capacity ∧
      (capacity < capacityLimit → (new capacity : Except Failure (Cache κ ν)) = .ok (fresh capacity)) := by
  obtain ⟨cache, answers, order, run_eq, arranged, capacity_eq⟩ :=
    (valid_fresh capacity : Valid (fresh capacity : Cache κ ν) []).arranged.run pos calls
  have room : cache.nodes.size ≤ cache.capacity := arranged.room
  rw [capacity_eq] at room
  exact ⟨cache, answers, order, run_eq, arranged, fun other => arranged.forth.unique, arranged.length_eq, room,
    new_eq_ok pos⟩

/-- The place of a removed entry is used again, as is that of an evicted one. -/
theorem run_fresh_arranged_of_recycling :
    0 < 2 ∧ ∃ cache answers,
      (fresh 2 : Cache Nat Nat).run
        [.put 1 10, .put 2 20, .remove 1, .getOrInsert 3 30, .get 2, .put 4 40, .put 5 50, .remove 4] =
          .ok (cache, answers) ∧
      cache.Arranged [1] ∧ cache.free = [0] ∧ cache.nodes.size ≤ 2 := by
  have pos : 0 < 2 := by decide
  obtain ⟨cache, answers, order, run_eq, arranged, only, -, room, -⟩ := run_fresh_arranged pos
    [.put 1 10, .put 2 20, .remove 1, .getOrInsert 3 30, .get 2, .put 4 40, .put 5 50, (.remove 4 : CacheCall Nat Nat)]
  have left : ((fresh 2 : Cache Nat Nat).run
      [.put 1 10, .put 2 20, .remove 1, .getOrInsert 3 30, .get 2, .put 4 40, .put 5 50, .remove 4]).map
        (fun ran => (ran.1.nodes, ran.1.head, ran.1.free)) =
      .ok (#[none, some ⟨5, 50, none, none⟩], some 1, [0]) := rfl
  rw [run_eq] at left
  simp only [Except.map, Except.ok.injEq, Prod.mk.injEq] at left
  obtain ⟨nodes_eq, head_eq, free_eq⟩ := left
  have visits : Trail cache.nodes CacheNode.next cache.head [1] := by
    rw [nodes_eq, head_eq]
    exact .step rfl .done
  obtain rfl := only _ visits
  exact ⟨pos, cache, answers, run_eq, arranged, free_eq, room⟩

end RowStore.Cache
