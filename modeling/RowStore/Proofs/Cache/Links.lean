import RowStore.Cache

/-!
# The links of a cache

The nodes of a cache as a chain in both directions, and what becomes of the chain when a node is taken out of it or put
at its head. Nodes that are not in the chain stay as they are.
-/

namespace RowStore.Cache

variable {κ ν : Type}

/-- An entry of a cache, and its place in the arena. -/
structure Spot (κ ν : Type) where
  place : Nat
  key : κ
  value : ν

def Spot.entry (spot : Spot κ ν) : κ × ν := (spot.key, spot.value)

abbrev places (spots : List (Spot κ ν)) : List Nat := spots.map Spot.place

/-- The key and the place of each spot, which the index has to know. -/
abbrev labels (spots : List (Spot κ ν)) : List (κ × Nat) := spots.map fun spot => (spot.key, spot.place)

theorem map_snd_labels (spots : List (Spot κ ν)) : (labels spots).map Prod.snd = places spots := by
  simp [labels, places, Function.comp_def]

/-- The place of the first spot, or what comes after the spots where there are none. -/
def firstPlace : List (Spot κ ν) → Option Nat → Option Nat
  | [], after => after
  | spot :: _, _ => some spot.place

/-- The place of the last spot, or what comes before the spots where there are none. -/
def lastPlace : Option Nat → List (Spot κ ν) → Option Nat
  | before, [] => before
  | _, spot :: rest => lastPlace (some spot.place) rest

/-- The arena holds a node for each spot, linked to its neighbours in both directions. -/
def Linked (nodes : Array (Option (CacheNode κ ν))) : Option Nat → List (Spot κ ν) → Option Nat → Prop
  | _, [], _ => True
  | before, spot :: rest, after =>
    nodes[spot.place]? = some (some ⟨spot.key, spot.value, before, firstPlace rest after⟩) ∧
      Linked nodes (some spot.place) rest after

@[simp] theorem firstPlace_cons (spot : Spot κ ν) (rest : List (Spot κ ν)) (after : Option Nat) :
    firstPlace (spot :: rest) after = some spot.place := rfl

@[simp] theorem firstPlace_append (xs ys : List (Spot κ ν)) (after : Option Nat) :
    firstPlace (xs ++ ys) after = firstPlace xs (firstPlace ys after) := by
  cases xs <;> rfl

@[simp] theorem lastPlace_append (before : Option Nat) (xs ys : List (Spot κ ν)) :
    lastPlace before (xs ++ ys) = lastPlace (lastPlace before xs) ys := by
  induction xs generalizing before with
  | nil => rfl
  | cons spot rest ih => exact ih _

theorem linked_append {nodes : Array (Option (CacheNode κ ν))} {before after : Option Nat}
    {xs ys : List (Spot κ ν)} :
    Linked nodes before (xs ++ ys) after ↔
      Linked nodes before xs (firstPlace ys after) ∧ Linked nodes (lastPlace before xs) ys after := by
  induction xs generalizing before with
  | nil => simp [Linked, lastPlace]
  | cons spot rest ih => simp [Linked, lastPlace, ih, and_assoc]

theorem Linked.congr {nodes nodes' : Array (Option (CacheNode κ ν))} {before after : Option Nat}
    {spots : List (Spot κ ν)} (linked : Linked nodes before spots after)
    (same : ∀ i ∈ places spots, nodes'[i]? = nodes[i]?) : Linked nodes' before spots after := by
  induction spots generalizing before with
  | nil => trivial
  | cons spot rest ih =>
    obtain ⟨here, there⟩ := linked
    refine ⟨?_, ih there fun i hi => same i (List.mem_cons_of_mem _ hi)⟩
    rw [same spot.place List.mem_cons_self, here]

theorem Linked.node_of_mem {nodes : Array (Option (CacheNode κ ν))} {before after : Option Nat}
    {spots : List (Spot κ ν)} (linked : Linked nodes before spots after) {spot : Spot κ ν}
    (mem : spot ∈ spots) :
    ∃ prev next, nodes[spot.place]? = some (some ⟨spot.key, spot.value, prev, next⟩) := by
  induction spots generalizing before with
  | nil => cases mem
  | cons first rest ih =>
    obtain ⟨here, there⟩ := linked
    rcases List.mem_cons.mp mem with rfl | mem
    · exact ⟨_, _, here⟩
    · exact ih there mem

theorem Linked.not_free {nodes : Array (Option (CacheNode κ ν))} {before after : Option Nat}
    {spots : List (Spot κ ν)} (linked : Linked nodes before spots after) {place : Nat}
    (mem : place ∈ places spots) : nodes[place]? ≠ some none := by
  obtain ⟨spot, hs, rfl⟩ := List.mem_map.mp mem
  obtain ⟨prev, next, here⟩ := linked.node_of_mem hs
  simp [here]

/-! ## Reading the nodes -/

theorem node_eq_ok {cache : Cache κ ν} {i : Nat} {node : CacheNode κ ν}
    (h : cache.nodes[i]? = some (some node)) : cache.node i = .ok node := by
  simp [Cache.node, h]

theorem walk_linked {cache : Cache κ ν} {before : Option Nat} {spots : List (Spot κ ν)} {fuel : Nat}
    (linked : Linked cache.nodes before spots none) (enough : spots.length ≤ fuel) :
    ∃ found, cache.walk fuel (firstPlace spots none) = .ok found ∧
      found.map (fun node => (node.key, node.value)) = spots.map Spot.entry := by
  induction spots generalizing before fuel with
  | nil => exact ⟨[], by cases fuel <;> rfl, rfl⟩
  | cons spot rest ih =>
    obtain ⟨here, there⟩ := linked
    cases fuel with
    | zero => simp at enough
    | succ fuel =>
      obtain ⟨found, walk_eq, map_eq⟩ := ih there (Nat.le_of_succ_le_succ enough)
      refine ⟨⟨spot.key, spot.value, before, firstPlace rest none⟩ :: found, ?_, ?_⟩
      · rw [firstPlace_cons, walk, node_eq_ok here]
        simp only [bind, Except.bind, walk_eq]
        rfl
      · simp [Spot.entry, map_eq]

/-! ## Changing one node -/

theorem modifyNode_eq_ok (cache : Cache κ ν) {i : Nat} {node : CacheNode κ ν}
    (h : cache.nodes[i]? = some (some node)) (change : CacheNode κ ν → CacheNode κ ν) :
    cache.modifyNode i change =
      .ok { cache with nodes := cache.nodes.setIfInBounds i (some (change node)) } := by
  simp [modifyNode, node_eq_ok h]

theorem getElem?_set_self {nodes : Array (Option (CacheNode κ ν))} {i : Nat}
    {old : Option (CacheNode κ ν)} (h : nodes[i]? = some old) (new : Option (CacheNode κ ν)) :
    (nodes.setIfInBounds i new)[i]? = some new := by
  have := (Array.getElem?_eq_some_iff.mp h).1
  simp [this]

theorem getElem?_set_ne (nodes : Array (Option (CacheNode κ ν))) {i j : Nat} (h : j ≠ i)
    (new : Option (CacheNode κ ν)) : (nodes.setIfInBounds i new)[j]? = nodes[j]? := by
  rw [Array.getElem?_setIfInBounds, if_neg (Ne.symm h)]

/-- Outside the places listed, two arenas are the same. -/
def SameOutside (listed : List Nat) (nodes nodes' : Array (Option (CacheNode κ ν))) : Prop :=
  nodes'.size = nodes.size ∧ ∀ i ∉ listed, nodes'[i]? = nodes[i]?

theorem SameOutside.refl (listed : List Nat) (nodes : Array (Option (CacheNode κ ν))) :
    SameOutside listed nodes nodes := ⟨rfl, fun _ _ => rfl⟩

theorem SameOutside.trans {listed : List Nat} {a b c : Array (Option (CacheNode κ ν))}
    (h₁ : SameOutside listed a b) (h₂ : SameOutside listed b c) : SameOutside listed a c :=
  ⟨h₂.1.trans h₁.1, fun i hi => (h₂.2 i hi).trans (h₁.2 i hi)⟩

theorem SameOutside.mono {listed more : List Nat} {a b : Array (Option (CacheNode κ ν))}
    (h : SameOutside listed a b) (sub : listed ⊆ more) : SameOutside more a b :=
  ⟨h.1, fun i hi => h.2 i fun mem => hi (sub mem)⟩

theorem sameOutside_set (nodes : Array (Option (CacheNode κ ν))) (i : Nat) (new : Option (CacheNode κ ν)) :
    SameOutside [i] nodes (nodes.setIfInBounds i new) :=
  ⟨by simp, fun j hj => getElem?_set_ne nodes (by simpa using hj) new⟩

theorem setNext_linked (cache : Cache κ ν) {spots : List (Spot κ ν)} {after : Option Nat}
    (linked : Linked cache.nodes none spots after) (nodup : (places spots).Nodup) (next : Option Nat) :
    ∃ nodes, cache.setNext (lastPlace none spots) next =
        .ok { cache with nodes, head := if spots = [] then next else cache.head } ∧
      Linked nodes none spots next ∧ SameOutside (places spots) cache.nodes nodes := by
  rcases List.eq_nil_or_concat spots with rfl | ⟨xs, spot, rfl⟩
  · exact ⟨cache.nodes, rfl, trivial, .refl ..⟩
  · rw [List.concat_eq_append] at linked nodup ⊢
    obtain ⟨before, last, -⟩ := linked_append.mp linked
    have other : ∀ i ∈ places xs, i ≠ spot.place := by
      rintro i hi rfl
      rw [places, List.map_append, List.nodup_append] at nodup
      exact nodup.2.2 _ hi _ (by simp) rfl
    refine ⟨cache.nodes.setIfInBounds spot.place
      (some ⟨spot.key, spot.value, lastPlace none xs, next⟩), ?_, ?_, ?_⟩
    · simp only [lastPlace_append, lastPlace, setNext, modifyNode_eq_ok _ last]
      simp
    · refine linked_append.mpr ⟨before.congr fun i hi => getElem?_set_ne _ (other i hi) _, ?_, trivial⟩
      exact getElem?_set_self last _
    · exact (sameOutside_set ..).mono (by simp)

theorem setPrev_linked (cache : Cache κ ν) {spots : List (Spot κ ν)} {before : Option Nat}
    (linked : Linked cache.nodes before spots none) (nodup : (places spots).Nodup) (prev : Option Nat) :
    ∃ nodes, cache.setPrev (firstPlace spots none) prev =
        .ok { cache with nodes, tail := if spots = [] then prev else cache.tail } ∧
      Linked nodes prev spots none ∧ SameOutside (places spots) cache.nodes nodes := by
  cases spots with
  | nil => exact ⟨cache.nodes, rfl, trivial, .refl ..⟩
  | cons spot rest =>
    obtain ⟨here, there⟩ := linked
    have other : ∀ i ∈ places rest, i ≠ spot.place := by
      rintro i hi rfl
      exact (List.nodup_cons.mp nodup).1 hi
    refine ⟨cache.nodes.setIfInBounds spot.place
      (some ⟨spot.key, spot.value, prev, firstPlace rest none⟩), ?_, ⟨?_, ?_⟩, ?_⟩
    · simp [firstPlace, setPrev, modifyNode_eq_ok _ here]
    · exact getElem?_set_self here _
    · exact there.congr fun i hi => getElem?_set_ne _ (other i hi) _
    · exact (sameOutside_set ..).mono (by simp)

/-! ## Taking a node out of the order of use, and putting it first -/

theorem nodup_places_middle {xs ys : List (Spot κ ν)} {spot : Spot κ ν}
    (nodup : (places (xs ++ spot :: ys)).Nodup) :
    spot.place ∉ places (xs ++ ys) ∧ (places (xs ++ ys)).Nodup := by
  simp only [places, List.map_append, List.map_cons] at nodup ⊢
  rwa [List.perm_middle.nodup_iff, List.nodup_cons] at nodup

theorem unlink_linked {cache : Cache κ ν} {xs ys : List (Spot κ ν)} {spot : Spot κ ν}
    (linked : Linked cache.nodes none (xs ++ spot :: ys) none)
    (head_eq : cache.head = firstPlace (xs ++ spot :: ys) none)
    (tail_eq : cache.tail = lastPlace none (xs ++ spot :: ys))
    (nodup : (places (xs ++ spot :: ys)).Nodup) :
    ∃ nodes, cache.unlink spot.place =
        .ok { cache with nodes, head := firstPlace (xs ++ ys) none, tail := lastPlace none (xs ++ ys) } ∧
      Linked nodes none (xs ++ ys) none ∧
      nodes[spot.place]? = some (some ⟨spot.key, spot.value, none, none⟩) ∧
      SameOutside (places (xs ++ spot :: ys)) cache.nodes nodes := by
  obtain ⟨before, here, behind⟩ := linked_append.mp linked
  obtain ⟨absent, nodup'⟩ := nodup_places_middle nodup
  simp only [places, List.map_append, List.mem_append, not_or] at absent
  rw [places, List.map_append, List.nodup_append] at nodup'
  obtain ⟨nodup_xs, nodup_ys, apart⟩ := nodup'
  -- the node before gets a new neighbour
  obtain ⟨nodes₁, next_eq, linked_xs, same₁⟩ := setNext_linked cache before nodup_xs (firstPlace ys none)
  have behind₁ : Linked nodes₁ (some spot.place) ys none :=
    behind.congr fun i hi => same₁.2 i fun mem => apart _ mem _ hi rfl
  have here₁ : nodes₁[spot.place]? = cache.nodes[spot.place]? := same₁.2 _ absent.1
  -- the node behind gets a new neighbour
  obtain ⟨nodes₂, prev_eq, linked_ys, same₂⟩ := setPrev_linked
    { cache with nodes := nodes₁, head := if xs = [] then firstPlace ys none else cache.head }
    behind₁ nodup_ys (lastPlace none xs)
  have linked_xs₂ : Linked nodes₂ none xs (firstPlace ys none) :=
    linked_xs.congr fun i hi => same₂.2 i fun mem => apart _ hi _ mem rfl
  have here₂ : nodes₂[spot.place]? = _ := (same₂.2 _ absent.2).trans (here₁.trans here)
  refine ⟨nodes₂.setIfInBounds spot.place (some ⟨spot.key, spot.value, none, none⟩), ?_, ?_, ?_, ?_⟩
  · have step : cache.unlink spot.place = .ok
        { cache with
          nodes := nodes₂.setIfInBounds spot.place (some ⟨spot.key, spot.value, none, none⟩)
          head := if xs = [] then firstPlace ys none else cache.head
          tail := if ys = [] then lastPlace none xs else cache.tail } := by
      simp only [unlink, node_eq_ok here, bind, Except.bind, next_eq, prev_eq]
      simp [modifyNode, Cache.node, here₂]
    have head_eq' : (if xs = [] then firstPlace ys none else cache.head) = firstPlace (xs ++ ys) none := by
      cases xs with
      | nil => rfl
      | cons _ _ => exact head_eq
    have tail_eq' : (if ys = [] then lastPlace none xs else cache.tail) = lastPlace none (xs ++ ys) := by
      cases ys with
      | nil => simp
      | cons _ _ => simpa [lastPlace] using tail_eq
    rw [step, head_eq', tail_eq']
  · refine linked_append.mpr ⟨linked_xs₂.congr fun i hi => ?_, linked_ys.congr fun i hi => ?_⟩
    · exact getElem?_set_ne _ (by rintro rfl; exact absent.1 hi) _
    · exact getElem?_set_ne _ (by rintro rfl; exact absent.2 hi) _
  · exact getElem?_set_self here₂ _
  · refine (same₁.mono ?_).trans ((same₂.mono ?_).trans ((sameOutside_set ..).mono ?_)) <;>
      simp

theorem linkFirst_linked (cache : Cache κ ν) {spots : List (Spot κ ν)} {spot : Spot κ ν}
    {prev next : Option Nat} (linked : Linked cache.nodes none spots none)
    (head_eq : cache.head = firstPlace spots none) (tail_eq : cache.tail = lastPlace none spots)
    (nodup : (places (spot :: spots)).Nodup)
    (here : cache.nodes[spot.place]? = some (some ⟨spot.key, spot.value, prev, next⟩)) :
    ∃ nodes, cache.linkFirst spot.place =
        .ok { cache with nodes, head := some spot.place, tail := lastPlace none (spot :: spots) } ∧
      Linked nodes none (spot :: spots) none ∧
      SameOutside (places (spot :: spots)) cache.nodes nodes := by
  obtain ⟨absent, nodup'⟩ := List.nodup_cons.mp nodup
  let nodes₁ := cache.nodes.setIfInBounds spot.place
    (some ⟨spot.key, spot.value, none, cache.head⟩)
  have here₁ : nodes₁[spot.place]? = some (some ⟨spot.key, spot.value, none, cache.head⟩) :=
    getElem?_set_self here _
  have linked₁ : Linked nodes₁ none spots none :=
    linked.congr fun i hi => getElem?_set_ne _ (by rintro rfl; exact absent hi) _
  obtain ⟨nodes₂, prev_eq, linked₂, same₂⟩ :=
    setPrev_linked { cache with nodes := nodes₁ } linked₁ nodup' (some spot.place)
  have here₂ : nodes₂[spot.place]? = _ := (same₂.2 _ absent).trans here₁
  refine ⟨nodes₂, ?_, ⟨head_eq ▸ here₂, linked₂⟩, ?_⟩
  · have step : cache.linkFirst spot.place = .ok
        { cache with
          nodes := nodes₂
          head := some spot.place
          tail := if spots = [] then some spot.place else cache.tail } := by
      rw [← head_eq] at prev_eq
      simp only [linkFirst, modifyNode_eq_ok cache here, bind, Except.bind, nodes₁, prev_eq]
      rfl
    have tail_eq' : (if spots = [] then some spot.place else cache.tail) = lastPlace none (spot :: spots) := by
      cases spots with
      | nil => rfl
      | cons _ _ => exact tail_eq
    rw [step, tail_eq']
  · refine ((sameOutside_set ..).mono ?_).trans (same₂.mono ?_) <;> simp

end RowStore.Cache
